import LocaleKeys.Proofs.Store.Agreement

/-!
# Files that are formatted

A formatting says what becomes of a file with a given name and given bytes. A store in which files
are formatted differs from the one before at these files only (`Formatted`), and files can be
formatted one after the other (`Formatted.of_set`), because all paths go on leading where they led.
-/

namespace LocaleKeys

/-- What becomes of a file with a given name and given bytes: its new bytes, and its new mode unless
that is kept. -/
abbrev Formatting := Text → Bytes → Bytes × Option Mode

namespace Formatting

def keep : Formatting := fun _ bytes => (bytes, none)

def entry (f : Formatting) (name : Text) : Entry → Entry
  | .file bytes mode => .file (f name bytes).1 ((f name bytes).2.getD mode)
  | .directory mode => .directory mode

theorem entry_keep (name : Text) (e : Entry) : keep.entry name e = e := by
  cases e <;> rfl

end Formatting

namespace Store

/-- Whether paths lead to files, no two of them to the same one. -/
structure LeadToFiles (s : Store) (here : Text) (paths : List Text) : Prop where
  isFile : ∀ p ∈ paths, s.isFile here p = true
  pairwise_ne : paths.Pairwise fun p q => s.locate here p ≠ s.locate here q

/-- Whether one store is another one in which the entries at some paths are formatted. -/
structure Formatted (f : Formatting) (here : Text) (paths : List Text) (s s' : Store) : Prop where
  given : ∀ p ∈ paths, ∀ l, s.locate here p = .ok l →
    s'.get? l = (s.get? l).map (f.entry (Path.base p))
  other : ∀ l, (∀ p ∈ paths, s.locate here p ≠ .ok l) → s'.get? l = s.get? l

theorem formatted_keep (here : Text) (paths : List Text) (s : Store) :
    Formatted .keep here paths s s where
  given p _ l _ := by
    cases s.get? l with
    | none => rfl
    | some e => exact congrArg some (Formatting.entry_keep (Path.base p) e).symm
  other _ _ := rfl

section Step

variable {f : Formatting} {here p : Text} {ps : List Text} {s s' : Store} {l : Location}
variable {bytes : Bytes} {mode : Mode}
variable (h : s.LeadToFiles here (p :: ps)) (hl : s.locate here p = .ok l)
variable (hget : s.get? l = some (.file bytes mode))
include h hl hget

theorem locate_ne_of_leadToFiles_cons (q : Text) (hq : q ∈ ps) (k : Location)
    (hk : s.locate here q = .ok k) : k ≠ l := by
  rintro rfl
  exact (List.pairwise_cons.1 h.pairwise_ne).1 q hq (hl.trans hk.symm)

theorem leadToFiles_set (bytes' : Bytes) (mode' : Mode) :
    (s.set l (.file bytes' mode')).LeadToFiles here ps := by
  obtain ⟨-, hfiles⟩ := List.forall_mem_cons.1 h.isFile
  have hdirs := sameDirectories_set_file s l bytes' mode'
    (ne_nil_of_get?_eq_file s l bytes mode hget)
    (not_isDirectoryAt_of_get?_eq_file s l bytes mode hget)
  constructor
  · intro q hq
    obtain ⟨k, b, m, hk, hkget⟩ := (isFile_iff _ _ _).1 (hfiles q hq)
    refine (isFile_iff _ _ _).2 ⟨k, b, m, (hdirs.locate_iff _ _ _).2 hk, ?_⟩
    rw [get?_set_of_ne s l k _ (locate_ne_of_leadToFiles_cons h hl hget q hq k hk), hkget]
  · refine (List.pairwise_cons.1 h.pairwise_ne).2.imp_of_mem fun {q r} hq hr hqr heq => hqr ?_
    obtain ⟨k, -, -, hk, -⟩ := (isFile_iff _ _ _).1 (hfiles q hq)
    have hk' := (hdirs.locate_iff here q k).2 hk
    exact hk.trans ((hdirs.locate_iff here r k).1 (heq ▸ hk')).symm

/-- Files can be formatted one after the other. -/
theorem Formatted.of_set (h' : Formatted f here ps
    (s.set l (f.entry (Path.base p) (.file bytes mode))) s') : Formatted f here (p :: ps) s s' := by
  have hlne := ne_nil_of_get?_eq_file s l bytes mode hget
  have hapart := locate_ne_of_leadToFiles_cons h hl hget
  have hdirs := sameDirectories_set_file s l (f (Path.base p) bytes).1
    ((f (Path.base p) bytes).2.getD mode) hlne
    (not_isDirectoryAt_of_get?_eq_file s l bytes mode hget)
  constructor
  · refine List.forall_mem_cons.2 ⟨fun k hk => ?_, fun q hq k hk => ?_⟩
    · obtain rfl := Except.ok.inj (hl.symm.trans hk)
      rw [h'.other l fun q hq hk => hapart q hq l ((hdirs.locate_iff _ _ _).1 hk) rfl,
        get?_set_self s l _ hlne, hget]
      rfl
    · rw [h'.given q hq k ((hdirs.locate_iff _ _ _).2 hk),
        get?_set_of_ne s l k _ (hapart q hq k hk)]
  · intro k hk
    obtain ⟨hp, hps⟩ := List.forall_mem_cons.1 hk
    rw [h'.other k fun q hq hk => hps q hq ((hdirs.locate_iff _ _ _).1 hk),
      get?_set_of_ne s l k _ fun heq => hp (heq ▸ hl)]

end Step

end Store

end LocaleKeys
