import LocaleKeys.Proofs.Store.Children

/-!
# Stores that agree but for some names

Where a path leads depends on the directories alone, so that it is the same in two stores with the
same directories (`SameDirectories`). A step that only makes, changes or takes away files with known
names leaves the directories as they are, and all entries with other names (`AgreesBut`). Such steps
can follow one another, and what does not look at files with these names sees the same in both
stores.
-/

namespace LocaleKeys

namespace Store

structure SameDirectories (s s' : Store) : Prop where
  isDirectoryAt_iff : ∀ l, s'.IsDirectoryAt l ↔ s.IsDirectoryAt l

/-- Whether two stores have the same directories, and the same entries but for those with some
names. -/
structure AgreesBut (names : List Text) (s s' : Store) : Prop extends SameDirectories s s' where
  get?_eq : ∀ parent name, name ∉ names → s'.get? (parent ++ [name]) = s.get? (parent ++ [name])

theorem sameDirectories_set_file (s : Store) (l : Location) (bytes : Bytes) (mode : Mode)
    (hl : l ≠ []) (h : ¬ s.IsDirectoryAt l) : SameDirectories s (s.set l (.file bytes mode)) :=
  ⟨fun k => isDirectoryAt_set_file_iff s l k bytes mode hl h⟩

/-- Setting a file where there is no directory changes only entries with its name. -/
theorem agreesBut_set_file (s : Store) (parent : Location) (name : Text) (bytes : Bytes)
    (mode : Mode) (h : ¬ s.IsDirectoryAt (parent ++ [name])) :
    AgreesBut [name] s (s.set (parent ++ [name]) (.file bytes mode)) where
  toSameDirectories := sameDirectories_set_file s _ bytes mode (by simp) h
  get?_eq above other hother := by
    refine get?_set_of_ne s _ _ _ fun heq => hother ?_
    rw [(List.cons.inj (List.append_inj' heq rfl).2).1]
    exact List.mem_singleton_self name

namespace SameDirectories

variable {s s' s'' : Store}

theorem symm (h : SameDirectories s s') : SameDirectories s' s :=
  ⟨fun l => (h.isDirectoryAt_iff l).symm⟩

theorem locate_iff (h : SameDirectories s s') (here path : Text) (l : Location) :
    s'.locate here path = .ok l ↔ s.locate here path = .ok l :=
  ⟨locate_of_directories s' s (fun k => (h.isDirectoryAt_iff k).1) here path l,
    locate_of_directories s s' (fun k => (h.isDirectoryAt_iff k).2) here path l⟩

theorem isDirectory_eq (h : SameDirectories s s') (here path : Text) :
    s'.isDirectory here path = s.isDirectory here path := by
  rw [Bool.eq_iff_iff, isDirectory_iff, isDirectory_iff]
  simp only [h.locate_iff, h.isDirectoryAt_iff]

/-- A path finds what it found unless the entry to which it leads is different. -/
theorem entry_iff (h : SameDirectories s s') (here path : Text)
    (hget : ∀ l, s.locate here path = .ok l → s'.get? l = s.get? l) (l : Location) (e : Entry) :
    s'.entry here path = .ok (l, e) ↔ s.entry here path = .ok (l, e) := by
  rw [entry_eq_ok_iff, entry_eq_ok_iff, h.locate_iff]
  exact and_congr_right fun hl => by rw [hget l hl]

end SameDirectories

namespace AgreesBut

variable {names names' : List Text} {s s' s'' : Store}

theorem symm (h : AgreesBut names s s') : AgreesBut names s' s :=
  ⟨h.toSameDirectories.symm, fun parent name hname => (h.get?_eq parent name hname).symm⟩

theorem mem_children_iff (h : AgreesBut names s s') (l : Location) (name : Text)
    (hname : name ∉ names) : name ∈ s'.children l ↔ name ∈ s.children l := by
  rw [Store.mem_children_iff, Store.mem_children_iff, h.get?_eq l name hname]

theorem content?_join_iff (h : AgreesBut names s s') (here dir name : Text) (hdir : dir ≠ [])
    (hentry : Path.IsEntryName name) (hname : name ∉ names) (bytes : Bytes) :
    s'.content? here (Path.join dir name) = some bytes ↔
      s.content? here (Path.join dir name) = some bytes := by
  rw [content?_eq_some_iff, content?_eq_some_iff]
  refine exists_congr fun l => exists_congr fun mode => ?_
  rw [h.locate_iff]
  refine and_congr_right fun hl => ?_
  obtain ⟨parent, rfl, -⟩ := s.exists_of_locate_join here dir name l hdir hentry hl
  rw [h.get?_eq parent name hname]

end AgreesBut

end Store

end LocaleKeys
