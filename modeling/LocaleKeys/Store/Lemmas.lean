import LocaleKeys.Store.Basic

/-!
# What the operations of a store do

Two stores are the same for every reader if `get?` agrees at every location, so that each operation
is described by what `get?` sees after it. The root has no entry of its own, and is left out where
an entry is set. A new entry that is erased again leaves the same store, not only an equivalent one.
-/

namespace LocaleKeys

namespace Store

theorem get?_nil (s : Store) : s.get? [] = some (.directory rootMode) := rfl

theorem get?_of_ne_nil (s : Store) (l : Location) (h : l ≠ []) :
    s.get? l = s.entries.lookup l := by
  cases l with
  | nil => exact absurd rfl h
  | cons name names => rfl

theorem lookup_setIn_self (l : Location) (e : Entry) (es : List (Location × Entry)) :
    (setIn l e es).lookup l = some e := by
  induction es with
  | nil => simp [setIn]
  | cons x es ih =>
      obtain ⟨k, f⟩ := x
      by_cases h : k = l
      · simp [setIn, h]
      · have hlk : (l == k) = false := by simpa using fun h' : l = k => h h'.symm
        simp [setIn, h, List.lookup_cons, hlk, ih]

theorem lookup_setIn_of_ne (l k : Location) (e : Entry) (h : k ≠ l)
    (es : List (Location × Entry)) :
    (setIn l e es).lookup k = es.lookup k := by
  have hkl : (k == l) = false := by simpa using h
  induction es with
  | nil => simp [setIn, List.lookup_cons, hkl]
  | cons x es ih =>
      obtain ⟨m, f⟩ := x
      by_cases hm : m = l
      · subst hm
        simp [setIn, List.lookup_cons, hkl]
      · cases hkm : k == m <;> simp [setIn, hm, List.lookup_cons, hkm, ih]

theorem get?_set_self (s : Store) (l : Location) (e : Entry) (h : l ≠ []) :
    (s.set l e).get? l = some e := by
  rw [get?_of_ne_nil _ l h]
  exact lookup_setIn_self l e s.entries

theorem get?_set_of_ne (s : Store) (l k : Location) (e : Entry) (h : k ≠ l) :
    (s.set l e).get? k = s.get? k := by
  by_cases hk : k = []
  · rw [hk, get?_nil, get?_nil]
  · rw [get?_of_ne_nil _ k hk, get?_of_ne_nil _ k hk]
    exact lookup_setIn_of_ne l k e h s.entries

theorem lookup_filter (p : Location → Bool) (k : Location) (es : List (Location × Entry)) :
    (es.filter fun x => p x.1).lookup k = if p k then es.lookup k else none := by
  induction es with
  | nil => simp
  | cons x es ih =>
      obtain ⟨m, f⟩ := x
      by_cases hkm : k = m
      · subst hkm
        cases hp : p k <;> simp [hp, ih]
      · have hb : (k == m) = false := by simpa using hkm
        cases hp : p m <;> simp [hp, List.lookup_cons, hb, ih]

theorem get?_erase_of_ne (s : Store) (l k : Location) (h : k ≠ l) :
    (s.erase l).get? k = s.get? k := by
  by_cases hk : k = []
  · rw [hk, get?_nil, get?_nil]
  · rw [get?_of_ne_nil _ k hk, get?_of_ne_nil _ k hk]
    simpa [erase, h] using lookup_filter (fun m => m ≠ l) k s.entries

theorem get?_eraseTree (s : Store) (l k : Location) (hk : k ≠ []) :
    (s.eraseTree l).get? k = if l.isPrefixOf k then none else s.get? k := by
  rw [get?_of_ne_nil _ k hk, get?_of_ne_nil _ k hk]
  have h := lookup_filter (fun m => !l.isPrefixOf m) k s.entries
  cases hp : l.isPrefixOf k <;> simpa [eraseTree, hp] using h

theorem filter_setIn_of_lookup_eq_none (l : Location) (e : Entry)
    (es : List (Location × Entry)) (h : es.lookup l = none) :
    (setIn l e es).filter (·.1 ≠ l) = es := by
  induction es with
  | nil => simp [setIn]
  | cons x es ih =>
      obtain ⟨k, f⟩ := x
      by_cases hlk : l = k
      · simp [hlk] at h
      · have hb : (l == k) = false := by simpa using hlk
        have hkl : k ≠ l := fun h' => hlk h'.symm
        rw [List.lookup_cons, hb] at h
        simpa [setIn, hkl] using ih h

/-- Setting a new entry and erasing it gives the same store. -/
theorem erase_set_of_get?_eq_none (s : Store) (l : Location) (e : Entry)
    (h : s.get? l = none) : (s.set l e).erase l = s := by
  have hl : l ≠ [] := by
    intro hl
    rw [hl, get?_nil] at h
    exact absurd h (by simp)
  rw [get?_of_ne_nil _ l hl] at h
  obtain ⟨es⟩ := s
  exact congrArg Store.mk (filter_setIn_of_lookup_eq_none l e es h)

end Store

end LocaleKeys
