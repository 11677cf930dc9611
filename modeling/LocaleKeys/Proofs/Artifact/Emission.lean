import LocaleKeys.Proofs.Artifact.Writing

/-!
# Artifacts that are written and formatted

What writing and formatting artifacts leaves behind depends on the store before it alone
(`Emitted`): every artifact is there with its bytes and the mode of the file that it replaces, both
as the formatting leaves them, and every other entry is as before. The bytes of all files are those
from before exactly if every artifact was there with its formatted bytes already
(`Emitted.forall_bytesAt?_eq_iff`), and emitting a second time changes nothing at all
(`Emitted.get?_eq_of_emitted`).
-/

namespace LocaleKeys

namespace Store

def bytesAt? (s : Store) (l : Location) : Option Bytes :=
  match s.get? l with
  | some (.file bytes _) => some bytes
  | _ => none

theorem content?_of_locate (s : Store) (here path : Text) (l : Location)
    (h : s.locate here path = .ok l) : s.content? here path = s.bytesAt? l := by
  refine Option.ext fun bytes => ?_
  rw [content?_eq_some_iff, bytesAt?]
  constructor
  · rintro ⟨k, mode, hk, hget⟩
    obtain rfl : l = k := Except.ok.inj (h.symm.trans hk)
    rw [hget]
  · intro hbytes
    split at hbytes
    · next b mode hget =>
        obtain rfl := Option.some.inj hbytes
        exact ⟨l, mode, h, hget⟩
    · exact nomatch hbytes

end Store

namespace Artifact

/-- Whether one store is another one with formatted artifacts in a directory. -/
structure Emitted (mask : Mode) (f : Formatting) (here directory : Text) (as : List Artifact)
    (s s' : Store) : Prop where
  /-- An artifact is there, with the mode of the file that it replaces. -/
  exists_get? : ∀ a ∈ as, ∃ parent data, a.encode = .ok data ∧
    s.locate here (Path.join directory a.name) = .ok (parent ++ [a.name]) ∧
    s.IsDirectoryAt parent ∧ ¬ s.IsDirectoryAt (parent ++ [a.name]) ∧
    s'.get? (parent ++ [a.name]) = some (f.entry a.name
      (.file data (s.modeUnder mask here (Path.join directory a.name))))
  get?_eq : ∀ l, (∀ a ∈ as, s.locate here (Path.join directory a.name) ≠ .ok l) →
    s'.get? l = s.get? l

/-- Artifacts that are written one after the other are all there in the end. -/
theorem Written.emitted {mask : Mode} {here directory : Text} {as : List Artifact} {s s' : Store}
    (h : Written mask here directory as s s') (hdir : directory ≠ [])
    (hnames : ∀ a ∈ as, Path.IsEntryName a.name) (hnodup : (as.map Artifact.name).Nodup) :
    Emitted mask .keep here directory as s s' := by
  induction h with
  | nil s => exact ⟨fun a ha => (nomatch ha), fun l _ => rfl⟩
  | cons a as s s' parent data hdata hlocate hparent hfile hrest ih =>
      obtain ⟨hname, hnames⟩ := List.forall_mem_cons.1 hnames
      obtain ⟨hnew, hnodup⟩ := List.nodup_cons.1 hnodup
      obtain ⟨hexists, hother⟩ := ih hnames hnodup
      have hagree := Store.agreesBut_set_file s parent a.name data
        (s.modeUnder mask here (Path.join directory a.name)) hfile
      -- The later artifacts have other names, so that none of them stands where this one does.
      have hapart : ∀ b ∈ as, ∀ l, s.locate here (Path.join directory b.name) = .ok l →
          l ≠ parent ++ [a.name] := by
        rintro b hb l hl rfl
        obtain ⟨above, heq, -⟩ :=
          Store.exists_of_locate_join s here directory b.name _ hdir (hnames b hb) hl
        rw [(List.cons.inj (List.append_inj' heq rfl).2).1] at hnew
        exact hnew (List.mem_map_of_mem hb)
      constructor
      · refine List.forall_mem_cons.2 ⟨⟨parent, data, hdata, hlocate, hparent, hfile, ?_⟩, ?_⟩
        · rw [hother _ fun b hb hl => hapart b hb _ ((hagree.locate_iff _ _ _).1 hl) rfl,
            Store.get?_set_self _ _ _ (by simp)]
          rfl
        · intro b hb
          obtain ⟨above, bytes, hbytes, hl, habove, hnotdir, hget⟩ := hexists b hb
          have hl' := (hagree.locate_iff _ _ _).1 hl
          refine ⟨above, bytes, hbytes, hl', (hagree.isDirectoryAt_iff _).1 habove,
            fun hdirectory => hnotdir ((hagree.isDirectoryAt_iff _).2 hdirectory), ?_⟩
          rw [hget, Store.modeUnder_set_file s mask here _ _ _ data _ (by simp) hfile hl'
            (hapart b hb _ hl')]
      · intro l hl
        obtain ⟨ha, has⟩ := List.forall_mem_cons.1 hl
        rw [hother l fun b hb hl' => has b hb ((hagree.locate_iff _ _ _).1 hl'),
          Store.get?_set_of_ne s _ l _ fun heq => ha (heq ▸ hlocate)]

namespace Emitted

variable {mask : Mode} {f : Formatting} {here directory : Text} {as : List Artifact} {s s' : Store}

/-- The files hold what they held exactly if the artifacts were there with their formatted bytes. -/
theorem forall_bytesAt?_eq_iff (h : Emitted mask f here directory as s s') :
    (∀ l, s'.bytesAt? l = s.bytesAt? l) ↔ ∀ a ∈ as, a.IsHeld f here directory s := by
  have hbytes : ∀ a ∈ as, ∃ l data, a.encode = .ok data ∧
      s.locate here (Path.join directory a.name) = .ok l ∧
        s'.bytesAt? l = some (f a.name data).1 := by
    intro a ha
    obtain ⟨parent, data, hdata, hl, -, -, hget⟩ := h.exists_get? a ha
    refine ⟨_, data, hdata, hl, ?_⟩
    rw [Store.bytesAt?, hget]
    rfl
  constructor
  · intro hsame a ha
    obtain ⟨l, data, hdata, hl, hnew⟩ := hbytes a ha
    exact ⟨data, hdata, by rw [Store.content?_of_locate s here _ l hl, ← hsame l, hnew]⟩
  · intro hsame l
    by_cases hl : ∀ a ∈ as, s.locate here (Path.join directory a.name) ≠ .ok l
    · rw [Store.bytesAt?, h.get?_eq l hl, Store.bytesAt?]
    · simp only [not_forall, not_not] at hl
      obtain ⟨a, ha, hl⟩ := hl
      obtain ⟨k, data, hdata, hk, hnew⟩ := hbytes a ha
      obtain ⟨data', hdata', hold⟩ := hsame a ha
      obtain rfl := Except.ok.inj (hl.symm.trans hk)
      obtain rfl := Except.ok.inj (hdata.symm.trans hdata')
      rw [hnew, ← hold, Store.content?_of_locate s here _ l hl]

theorem forall_get?_eq_iff (h : Emitted mask .keep here directory as s s') :
    (∀ l, s'.get? l = s.get? l) ↔ ∀ a ∈ as, a.IsHeld .keep here directory s := by
  constructor
  · intro hsame
    refine h.forall_bytesAt?_eq_iff.1 fun l => ?_
    rw [Store.bytesAt?, hsame, Store.bytesAt?]
  · intro hheld l
    by_cases hl : ∀ a ∈ as, s.locate here (Path.join directory a.name) ≠ .ok l
    · exact h.get?_eq l hl
    · simp only [not_forall, not_not] at hl
      obtain ⟨a, ha, hl⟩ := hl
      obtain ⟨parent, data, hdata, hlocate, -, -, hget⟩ := h.exists_get? a ha
      obtain ⟨data', hdata', hcontent⟩ := hheld a ha
      obtain rfl := Except.ok.inj (hdata.symm.trans hdata')
      obtain rfl := Except.ok.inj (hl.symm.trans hlocate)
      obtain ⟨k, mode, hk, hold⟩ := (Store.content?_eq_some_iff _ _ _ _).1 hcontent
      obtain rfl := Except.ok.inj (hl.symm.trans hk)
      -- The file hands its mode on to the one that replaces it.
      rw [hget, Store.modeUnder_eq_of_locate s mask here _ _ hl, hold]
      rfl

section Names

variable (hdir : directory ≠ []) (hnames : ∀ a ∈ as, Path.IsEntryName a.name)
include hdir hnames

theorem agreesBut (h : Emitted mask f here directory as s s') :
    Store.AgreesBut (as.map Artifact.name) s s' where
  isDirectoryAt_iff l := by
    by_cases hl : ∀ a ∈ as, s.locate here (Path.join directory a.name) ≠ .ok l
    · rw [Store.IsDirectoryAt, h.get?_eq l hl, Store.IsDirectoryAt]
    · simp only [not_forall, not_not] at hl
      obtain ⟨a, ha, hl⟩ := hl
      obtain ⟨parent, data, -, hl', -, hfile, hget⟩ := h.exists_get? a ha
      obtain rfl := Except.ok.inj (hl.symm.trans hl')
      exact iff_of_false (Store.not_isDirectoryAt_of_get?_eq_file s' _ _ _ hget) hfile
  get?_eq parent name hname := by
    refine h.get?_eq _ fun a ha hl => hname ?_
    obtain ⟨above, heq, -⟩ :=
      Store.exists_of_locate_join s here directory a.name _ hdir (hnames a ha) hl
    rw [(List.cons.inj (List.append_inj' heq rfl).2).1]
    exact List.mem_map_of_mem ha

theorem isTree (h : Emitted mask f here directory as s s') (hs : s.IsTree) : s'.IsTree := by
  intro parent name e he
  have hagree := h.agreesBut hdir hnames
  by_cases hl : ∀ a ∈ as, s.locate here (Path.join directory a.name) ≠ .ok (parent ++ [name])
  · rw [h.get?_eq _ hl] at he
    exact (hs parent name e he).imp id (hagree.isDirectoryAt_iff parent).2
  · simp only [not_forall, not_not] at hl
    obtain ⟨a, ha, hl⟩ := hl
    obtain ⟨above, heq, -, habove, -⟩ :=
      Store.exists_of_locate_join s here directory a.name _ hdir (hnames a ha) hl
    obtain ⟨rfl, hname⟩ := List.append_inj' heq rfl
    rw [(List.cons.inj hname).1]
    exact ⟨hnames a ha, (hagree.isDirectoryAt_iff parent).2 habove⟩

theorem isHeld (h : Emitted mask f here directory as s s') :
    ∀ a ∈ as, a.IsHeld f here directory s' := by
  intro a ha
  obtain ⟨parent, data, hdata, hl, -, -, hget⟩ := h.exists_get? a ha
  have hl' := ((h.agreesBut hdir hnames).locate_iff here _ _).2 hl
  refine ⟨data, hdata, ?_⟩
  rw [Store.content?_of_locate s' here _ _ hl', Store.bytesAt?, hget]
  rfl

theorem leadToFiles (h : Emitted mask f here directory as s s')
    (hnodup : (as.map Artifact.name).Nodup) (path : Artifact → Text)
    (hpath : ∀ a ∈ as, ∀ l, s'.locate here (path a) = .ok l ↔
      s'.locate here (Path.join directory a.name) = .ok l) :
    s'.LeadToFiles here (as.map path) := by
  have hlocate : ∀ a ∈ as, ∃ parent bytes mode, s'.locate here (path a) = .ok (parent ++ [a.name]) ∧
      s'.get? (parent ++ [a.name]) = some (.file bytes mode) := by
    intro a ha
    obtain ⟨parent, data, -, hl, -, -, hget⟩ := h.exists_get? a ha
    have hl' := ((h.agreesBut hdir hnames).locate_iff here _ _).2 hl
    exact ⟨parent, _, _, (hpath a ha _).2 hl', hget⟩
  constructor
  · intro p hp
    obtain ⟨a, ha, rfl⟩ := List.mem_map.1 hp
    obtain ⟨parent, bytes, mode, hl, hget⟩ := hlocate a ha
    exact (Store.isFile_iff _ _ _).2 ⟨_, bytes, mode, hl, hget⟩
  · rw [List.pairwise_map]
    refine (List.pairwise_map.1 hnodup).imp_of_mem fun {a b} ha hb hne heq => hne ?_
    obtain ⟨parent, -, -, hl, -⟩ := hlocate a ha
    obtain ⟨parent', -, -, hl', -⟩ := hlocate b hb
    have hsame := Except.ok.inj (hl.symm.trans (heq.trans hl'))
    exact (List.cons.inj (List.append_inj' hsame rfl).2).1

theorem of_formatted {s₁ s₂ : Store} (h : Emitted mask .keep here directory as s s₁)
    (path : Artifact → Text) (hbase : ∀ a ∈ as, Path.base (path a) = a.name)
    (hpath : ∀ a ∈ as, ∀ l, s₁.locate here (path a) = .ok l ↔
      s₁.locate here (Path.join directory a.name) = .ok l)
    (h' : Store.Formatted f here (as.map path) s₁ s₂) : Emitted mask f here directory as s s₂ where
  exists_get? a ha := by
    obtain ⟨parent, data, hdata, hl, hparent, hfile, hget⟩ := h.exists_get? a ha
    have hl₁ := ((h.agreesBut hdir hnames).locate_iff here _ _).2 hl
    refine ⟨parent, data, hdata, hl, hparent, hfile, ?_⟩
    rw [h'.given (path a) (List.mem_map_of_mem ha) _ ((hpath a ha _).2 hl₁), hget, hbase a ha]
    rfl
  get?_eq l hl := by
    rw [h'.other l fun p hp hlocate => ?_, h.get?_eq l hl]
    obtain ⟨a, ha, rfl⟩ := List.mem_map.1 hp
    exact hl a ha (((h.agreesBut hdir hnames).locate_iff here _ _).1 ((hpath a ha l).1 hlocate))

end Names

end Emitted

end Artifact

end LocaleKeys
