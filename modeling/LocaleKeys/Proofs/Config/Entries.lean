import LocaleKeys.Proofs.Config.Layers
import Mathlib.Data.List.Forall2
import Mathlib.Data.List.Perm.Subperm
import Mathlib.Logic.ExistsUnique

/-!
# What becomes of the entries of an option file

No entry of an option file is lost without a word: it sets an option, or it is left out with a
warning (`Fate`), and which of the two happens depends on the entry alone (`existsUnique_hasFate`).
Reading a mapping adds the fates of its entries one after another (`addEntry_of_hasFate`,
`foldlM_addEntry_of_forall₂`). What ends the reading is a key that no message can show, an integer
with too many digits (`foldlM_addEntry_of_isLongInteger`).
-/

namespace LocaleKeys

/-- The last value that a function has on a list is its value at the last element where it has one.
-/
theorem getLast?_filterMap_eq_some_iff {α β : Type} (g : α → Option β) (l : List α) (b : β) :
    (l.filterMap g).getLast? = some b ↔
      ∃ before a after, l = before ++ a :: after ∧ g a = some b ∧ ∀ x ∈ after, g x = none := by
  rw [List.getLast?_filterMap, List.findSome?_eq_some_iff]
  constructor
  · rintro ⟨after, a, before, hl, ha, hafter⟩
    refine ⟨before.reverse, a, after.reverse, ?_, ha, fun x hx => hafter x (List.mem_reverse.1 hx)⟩
    rw [← List.reverse_reverse l, hl]
    simp
  · rintro ⟨before, a, after, rfl, ha, hafter⟩
    refine ⟨after.reverse, a, before.reverse, by simp, ha, fun x hx => ?_⟩
    exact hafter x (List.mem_reverse.1 hx)

namespace Value

inductive IsCollection : Value → Prop
  | list (items : List Value) : IsCollection (.list items)
  | dict (entries : List (Value × Value)) : IsCollection (.dict entries)

inductive IsLongInteger : Value → Prop
  | int (n : Int) (h : Nat.pow 10 integerDigitLimit ≤ n.natAbs) : IsLongInteger (.int n)

theorem message_of_isLongInteger (v : Value) (h : v.IsLongInteger) :
    v.message = .error .integerShown := by
  obtain ⟨n, h⟩ := h
  rw [message, if_pos h]

theorem message_of_not_isLongInteger (v : Value) (h : ¬ v.IsLongInteger) :
    v.message = .ok v.text := by
  cases v with
  | int n => rw [message, if_neg fun hn => h (.int n hn)]
  | _ => rfl

/-- The only key that is the same as a string is this string. -/
theorem sameKey_str_iff (k : Value) (t : Text) : sameKey k (.str t) = true ↔ k = .str t := by
  cases k <;> simp [sameKey, keyInt?]

end Value

namespace OptionName

theorem ofSpelling?_eq_some_iff (spelling : Text) (name : OptionName) :
    ofSpelling? spelling = some name ↔ spelling ∈ name.spellings := by
  have hspelled : ∀ t ∈ name.spellings, ofSpelling? t = some name := by
    cases name <;> decide +kernel
  constructor
  · intro h
    rw [ofSpelling?] at h
    simpa using List.find?_some h
  · exact hspelled spelling

theorem ofSpelling?_eq_none_iff (spelling : Text) :
    ofSpelling? spelling = none ↔ ∀ name : OptionName, spelling ∉ name.spellings := by
  rw [Option.eq_none_iff_forall_ne_some]
  simp only [ne_eq, ofSpelling?_eq_some_iff]

theorem mem_all (name : OptionName) : name ∈ all := by
  cases name <;> decide

end OptionName

namespace Layer

variable {κ : Type} [DecidableEq κ]

def valueFor? (name : κ) (e : κ × Value) : Option Value := if e.1 = name then some e.2 else none

theorem valueFor?_eq_some_iff (name k : κ) (v w : Value) :
    valueFor? name (k, v) = some w ↔ k = name ∧ v = w := by
  rw [valueFor?]
  by_cases hk : k = name
  · rw [if_pos hk, Option.some.injEq]
    exact ⟨fun h => ⟨hk, h⟩, fun h => h.2⟩
  · rw [if_neg hk]
    exact ⟨fun h => (nomatch h), fun h => absurd h.1 hk⟩

theorem valuesOf_eq_filterMap (name : κ) (l : Layer κ) :
    valuesOf name l = l.filterMap (valueFor? name) := by
  induction l with
  | nil => rfl
  | cons e l ih =>
      obtain ⟨k, v⟩ := e
      rw [valuesOf_cons, ih, List.filterMap_cons, valueFor?]
      split
      · rfl
      · rfl

theorem mem_map_fst_set (l : Layer κ) (k name : κ) (v : Value) :
    name ∈ (l.set k v).map Prod.fst ↔ name = k ∨ name ∈ l.map Prod.fst := by
  induction l with
  | nil => simp [set]
  | cons e l ih =>
      obtain ⟨k', v'⟩ := e
      rw [set]
      split
      · next hk => simp [hk]
      · rw [List.map_cons, List.mem_cons, ih, List.map_cons, List.mem_cons, or_left_comm]

theorem nodup_map_fst_set (l : Layer κ) (k : κ) (v : Value) (h : (l.map Prod.fst).Nodup) :
    ((l.set k v).map Prod.fst).Nodup := by
  induction l with
  | nil => simp [set]
  | cons e l ih =>
      obtain ⟨k', v'⟩ := e
      rw [List.map_cons, List.nodup_cons] at h
      rw [set]
      split
      · exact List.nodup_cons.2 h
      · next hk =>
          refine List.nodup_cons.2 ⟨fun hmem => ?_, ih h.2⟩
          rcases (mem_map_fst_set l k k' v).1 hmem with hk' | hmem
          · exact hk hk'
          · exact h.1 hmem

theorem nodup_map_fst_foldl_set (l upper : Layer κ) (h : (l.map Prod.fst).Nodup) :
    ((upper.foldl (fun l e => l.set e.1 e.2) l).map Prod.fst).Nodup := by
  induction upper generalizing l with
  | nil => exact h
  | cons e upper ih => exact ih _ (nodup_map_fst_set l e.1 e.2 h)

end Layer

namespace FileOptions

/-- What becomes of an entry of an option file. -/
inductive Fate where
  | stored (name : OptionName) (value : Value)
  | left (warning : Text)

def Fate.warning? : Fate → Option Text
  | stored _ _ => none
  | left warning => some warning

section Entries

variable (path : Text)

def unknownWarning (spelling : Text) : Text :=
  "Unknown option '" ++ spelling ++ "' in '" ++ path ++ "' ignored."

def collectionWarning (spelling : Text) : Text :=
  "Option '" ++ spelling ++ "' in '" ++ path ++ "' must be a scalar; ignored."

/-- What becomes of an entry: one with a spelling of an option sets this option, unless its value is
a list or a mapping. -/
inductive HasFate : Value × Value → Fate → Prop
  | stored (key value : Value) (name : OptionName) (hname : key.text ∈ name.spellings)
      (hvalue : ¬ value.IsCollection) : HasFate (key, value) (.stored name value)
  | collection (key value : Value) (name : OptionName) (hname : key.text ∈ name.spellings)
      (hvalue : value.IsCollection) : HasFate (key, value) (.left (collectionWarning path key.text))
  | unknown (key value : Value) (hname : ∀ name : OptionName, key.text ∉ name.spellings) :
      HasFate (key, value) (.left (unknownWarning path key.text))

/-- An entry has exactly one fate. -/
theorem existsUnique_hasFate (e : Value × Value) : ∃! fate, HasFate path e fate := by
  obtain ⟨key, value⟩ := e
  cases hname : OptionName.ofSpelling? key.text with
  | none =>
      rw [OptionName.ofSpelling?_eq_none_iff] at hname
      refine ⟨_, .unknown key value hname, fun fate h => ?_⟩
      cases h with
      | unknown _ _ _ => rfl
      | stored _ _ name h' _ => exact absurd h' (hname name)
      | collection _ _ name h' _ => exact absurd h' (hname name)
  | some name =>
      have hother : ∀ name', key.text ∈ name'.spellings → name' = name := fun name' h =>
        Option.some.inj (((OptionName.ofSpelling?_eq_some_iff _ _).2 h).symm.trans hname)
      rw [OptionName.ofSpelling?_eq_some_iff] at hname
      by_cases hvalue : value.IsCollection
      · refine ⟨_, .collection key value name hname hvalue, fun fate h => ?_⟩
        cases h with
        | collection _ _ _ _ _ => rfl
        | stored _ _ _ _ h' => exact absurd hvalue h'
        | unknown _ _ h' => exact absurd hname (h' name)
      · refine ⟨_, .stored key value name hname hvalue, fun fate h => ?_⟩
        cases h with
        | stored _ _ name' h' _ => rw [hother name' h']
        | collection _ _ _ _ h' => exact absurd h' hvalue
        | unknown _ _ h' => exact absurd hname (h' name)

def add (f : FileOptions) : Fate → FileOptions
  | .stored name value => { f with options := f.options.set name value }
  | .left warning => { f with warnings := f.warnings ++ [warning] }

theorem addEntry_of_hasFate (f : FileOptions) (e : Value × Value) (fate : Fate)
    (h : HasFate path e fate) (hkey : ¬ e.1.IsLongInteger) :
    addEntry path f e.1 e.2 = .ok (f.add fate) := by
  have hmessage := Value.message_of_not_isLongInteger e.1 hkey
  cases h with
  | stored key value name hname hvalue =>
      rw [← OptionName.ofSpelling?_eq_some_iff] at hname
      rw [addEntry, hmessage]
      simp only [Except.mapError, bind, Except.bind, hname]
      cases value with
      | list items => exact absurd (.list items) hvalue
      | dict entries => exact absurd (.dict entries) hvalue
      | _ => rfl
  | collection key value name hname hvalue =>
      rw [← OptionName.ofSpelling?_eq_some_iff] at hname
      rw [addEntry, hmessage]
      simp only [Except.mapError, bind, Except.bind, hname]
      cases hvalue with
      | list items => rfl
      | dict entries => rfl
  | unknown key value hname =>
      rw [← OptionName.ofSpelling?_eq_none_iff] at hname
      rw [addEntry, hmessage]
      simp only [Except.mapError, bind, Except.bind, hname]
      rfl

/-- Reading entries adds their fates in order. -/
theorem foldlM_addEntry_of_forall₂ (entries : List (Value × Value)) (fates : List Fate)
    (h : List.Forall₂ (HasFate path) entries fates)
    (hkeys : ∀ e ∈ entries, ¬ e.1.IsLongInteger) (f : FileOptions) :
    entries.foldlM (fun f e => addEntry path f e.1 e.2) f = .ok (fates.foldl add f) := by
  induction h generalizing f with
  | nil => rfl
  | @cons e fate entries fates hfate _ ih =>
      rw [List.forall_mem_cons] at hkeys
      rw [List.foldlM_cons, addEntry_of_hasFate path f e fate hfate hkeys.1, List.foldl_cons]
      exact ih hkeys.2 (f.add fate)

theorem foldlM_addEntry_of_isLongInteger (entries : List (Value × Value))
    (h : ∃ e ∈ entries, e.1.IsLongInteger) (f : FileOptions) :
    entries.foldlM (fun f e => addEntry path f e.1 e.2) f = .error (.value .integerShown) := by
  induction entries generalizing f with
  | nil =>
      obtain ⟨e, he, -⟩ := h
      exact nomatch he
  | cons e entries ih =>
      rw [List.foldlM_cons]
      by_cases he : e.1.IsLongInteger
      · rw [addEntry, Value.message_of_isLongInteger e.1 he]
        rfl
      · obtain ⟨fate, hfate, -⟩ := existsUnique_hasFate path e
        rw [addEntry_of_hasFate path f e fate hfate he]
        obtain ⟨e', hmem, he'⟩ := h
        rcases List.mem_cons.1 hmem with rfl | hmem
        · exact absurd he' he
        · exact ih ⟨e', hmem, he'⟩ (f.add fate)

theorem warnings_foldl_add (fates : List Fate) (f : FileOptions) :
    (fates.foldl add f).warnings = f.warnings ++ fates.filterMap Fate.warning? := by
  induction fates generalizing f with
  | nil => exact (List.append_nil _).symm
  | cons fate fates ih =>
      rw [List.foldl_cons, ih]
      cases fate with
      | stored name value => rfl
      | left warning => exact List.append_assoc _ _ _

theorem named?_eq_some_iff (e : Value × Value) (hkey : ¬ e.1.IsLongInteger) (name : OptionName)
    (v : Value) : named? e = some (name, v) ↔ HasFate path e (.stored name v) := by
  obtain ⟨key, value⟩ := e
  have hmessage : key.message.toOption = some key.text := by
    rw [Value.message_of_not_isLongInteger key hkey]
    rfl
  constructor
  · intro h
    have hvalue : ¬ value.IsCollection := by
      rintro (items | entries)
      · exact nomatch h
      · exact nomatch h
    rw [named?, hmessage, Option.bind_some, Option.map_eq_some_iff] at h
    · obtain ⟨name', hname, h⟩ := h
      obtain ⟨rfl, rfl⟩ := Prod.mk.inj h
      exact .stored key value name' ((OptionName.ofSpelling?_eq_some_iff _ _).1 hname) hvalue
    · exact fun items hv => hvalue (hv ▸ .list items)
    · exact fun entries hv => hvalue (hv ▸ .dict entries)
  · rintro (⟨_, _, _, hname, hvalue⟩)
    rw [named?, hmessage, Option.bind_some, (OptionName.ofSpelling?_eq_some_iff _ _).2 hname]
    · rfl
    · exact fun items hv => hvalue (hv ▸ .list items)
    · exact fun entries hv => hvalue (hv ▸ .dict entries)

theorem exists_forall₂_hasFate (entries : List (Value × Value)) :
    ∃ fates, List.Forall₂ (HasFate path) entries fates := by
  induction entries with
  | nil => exact ⟨[], .nil⟩
  | cons e entries ih =>
      obtain ⟨fate, hfate, -⟩ := existsUnique_hasFate path e
      obtain ⟨fates, hfates⟩ := ih
      exact ⟨fate :: fates, .cons hfate hfates⟩

/-- Whether an entry is the last one that sets an option, to a given value. -/
def LastToSet (entries : List (Value × Value)) (name : OptionName) (v : Value) : Prop :=
  ∃ before e after, entries = before ++ e :: after ∧ HasFate path e (.stored name v) ∧
    ∀ e' ∈ after, ∀ v', ¬ HasFate path e' (.stored name v')

theorem bind_named?_valueFor?_eq_some_iff (e : Value × Value) (hkey : ¬ e.1.IsLongInteger)
    (name : OptionName) (v : Value) :
    (named? e).bind (Layer.valueFor? name) = some v ↔ HasFate path e (.stored name v) := by
  rw [← named?_eq_some_iff path e hkey, Option.bind_eq_some_iff]
  constructor
  · rintro ⟨⟨name', w⟩, hnamed, h⟩
    obtain ⟨rfl, rfl⟩ := (Layer.valueFor?_eq_some_iff _ _ _ _).1 h
    exact hnamed
  · exact fun h => ⟨_, h, (Layer.valueFor?_eq_some_iff _ _ _ _).2 ⟨rfl, rfl⟩⟩

/-- What is named last is what the last entry sets. -/
theorem getLast?_valuesOf_filterMap_named?_iff (entries : List (Value × Value))
    (hkeys : ∀ e ∈ entries, ¬ e.1.IsLongInteger) (name : OptionName) (v : Value) :
    (Layer.valuesOf name (entries.filterMap named?)).getLast? = some v ↔
      LastToSet path entries name v := by
  rw [Layer.valuesOf_eq_filterMap, List.filterMap_filterMap, getLast?_filterMap_eq_some_iff]
  constructor
  · rintro ⟨before, e, after, rfl, he, hafter⟩
    refine ⟨before, e, after, rfl, ?_, fun e' he' v' hfate => ?_⟩
    · exact (bind_named?_valueFor?_eq_some_iff path e (hkeys e (by simp)) name v).1 he
    · rw [← bind_named?_valueFor?_eq_some_iff path e' (hkeys e' (by simp [he'])),
        hafter e' he'] at hfate
      exact nomatch hfate
  · rintro ⟨before, e, after, rfl, he, hafter⟩
    refine ⟨before, e, after, rfl, ?_, fun e' he' => Option.eq_none_iff_forall_ne_some.2 ?_⟩
    · exact (bind_named?_valueFor?_eq_some_iff path e (hkeys e (by simp)) name v).2 he
    · intro v' h
      rw [bind_named?_valueFor?_eq_some_iff path e' (hkeys e' (by simp [he']))] at h
      exact hafter e' he' v' h

theorem getLast?_valuesOf_filterMap_named?_eq_none_iff (entries : List (Value × Value))
    (hkeys : ∀ e ∈ entries, ¬ e.1.IsLongInteger) (name : OptionName) :
    (Layer.valuesOf name (entries.filterMap named?)).getLast? = none ↔
      ∀ e ∈ entries, ∀ v, ¬ HasFate path e (.stored name v) := by
  rw [Layer.valuesOf_eq_filterMap, List.filterMap_filterMap, List.getLast?_eq_none_iff,
    List.filterMap_eq_nil_iff]
  refine forall₂_congr fun e he => ?_
  rw [Option.eq_none_iff_forall_ne_some]
  exact forall_congr' fun v =>
    not_congr (bind_named?_valueFor?_eq_some_iff path e (hkeys e he) name v)

theorem effective_of_flat (entries : List (Value × Value))
    (hflat : ∀ inner, (.str sectionName, .dict inner) ∉ entries) : effective entries = entries := by
  rw [effective]
  split
  · next key inner hfind =>
      have hsame : Value.sameKey key (.str sectionName) = true := by
        simpa using List.find?_some hfind
      obtain rfl := (Value.sameKey_str_iff key _).1 hsame
      exact absurd (List.mem_of_find?_eq_some hfind) (hflat inner)
  · rfl

theorem effective_of_section (before after inner : List (Value × Value))
    (hbefore : ∀ e ∈ before, e.1 ≠ .str sectionName) :
    effective (before ++ (.str sectionName, .dict inner) :: after) = inner := by
  have hfind : (before ++ (.str sectionName, .dict inner) :: after).find?
      (fun e => Value.sameKey e.1 (.str sectionName)) = some (.str sectionName, .dict inner) := by
    rw [List.find?_eq_some_iff_append]
    refine ⟨(Value.sameKey_str_iff _ _).2 rfl, before, after, rfl, fun e he => ?_⟩
    rw [Bool.not_eq_true', ← Bool.not_eq_true, Value.sameKey_str_iff]
    exact hbefore e he
  rw [effective, hfind]

/-- Of a mapping without a section no entry is lost, unless the reading of all ends at a key that no
message can show: each entry sets an option or leaves one warning, the warnings are in order, and an
option has the value of the last entry that sets it. Inside a section the mapping gives the same. -/
theorem entries_set_or_warn (entries : List (Value × Value))
    (hflat : ∀ inner, (.str sectionName, .dict inner) ∉ entries) :
    ((∀ e ∈ entries, ¬ e.1.IsLongInteger) →
      ∃ f fates, ofEntries path entries = .ok f ∧
        List.Forall₂ (HasFate path) entries fates ∧
        (∀ e ∈ entries, ∃! fate, HasFate path e fate) ∧
        f.warnings = fates.filterMap Fate.warning? ∧
        (∀ name v, f.options.find? name = some v ↔ LastToSet path entries name v) ∧
        (∀ name, f.options.find? name = none ↔
          ∀ e ∈ entries, ∀ v, ¬ HasFate path e (.stored name v)) ∧
        (f.options.map Prod.fst).Subperm OptionName.all) ∧
    ((∃ e ∈ entries, e.1.IsLongInteger) →
      ofEntries path entries = .error (.value .integerShown)) ∧
    ∀ before after, (∀ e ∈ before, e.1 ≠ .str sectionName) →
      ofEntries path (before ++ (.str sectionName, .dict entries) :: after) =
        ofEntries path entries := by
  have heffective := effective_of_flat entries hflat
  refine ⟨fun hkeys => ?_, fun hlong => ?_, fun before after hbefore => ?_⟩
  · obtain ⟨fates, hfates⟩ := exists_forall₂_hasFate path entries
    have hf : ofEntries path entries = .ok (fates.foldl add {}) := by
      rw [ofEntries, heffective]
      exact foldlM_addEntry_of_forall₂ path entries fates hfates hkeys {}
    refine ⟨_, fates, hf, hfates, fun e _ => existsUnique_hasFate path e,
      warnings_foldl_add fates {}, fun name v => ?_, fun name => ?_, ?_⟩
    · rw [find?_options_of_ofEntries_eq_ok path entries _ hf, named, heffective]
      exact getLast?_valuesOf_filterMap_named?_iff path entries hkeys name v
    · rw [find?_options_of_ofEntries_eq_ok path entries _ hf, named, heffective]
      exact getLast?_valuesOf_filterMap_named?_eq_none_iff path entries hkeys name
    · rw [options_of_foldlM_addEntry_eq_ok path _ _ _ hf]
      exact (Layer.nodup_map_fst_foldl_set [] _ List.nodup_nil).subperm fun name _ => name.mem_all
  · rw [ofEntries, heffective]
    exact foldlM_addEntry_of_isLongInteger path entries hlong {}
  · rw [ofEntries, ofEntries, effective_of_section before after entries hbefore, heffective]

def repeatedEntries : List (Value × Value) :=
  [(.str "input", .str "a"), (.str "colour", .int 1), (.str "inputPath", .null),
    (.str "input_path", .list [])]

def longKeyed : List (Value × Value) := [(.int (Nat.pow 10 integerDigitLimit), .int 1)]

theorem exists_isLongInteger_longKeyed : ∃ e ∈ longKeyed, e.1.IsLongInteger :=
  ⟨_, List.mem_singleton_self _, .int _ (Nat.le_of_eq (Int.natAbs_natCast _).symm)⟩

/-- A key that no message can show is neither stored nor warned about. -/
theorem not_every_entry_sets_or_warns :
    ¬ ∀ (path : Text) (entries : List (Value × Value)),
      (∀ inner, (.str sectionName, .dict inner) ∉ entries) →
      ∃ f fates, ofEntries path entries = .ok f ∧ List.Forall₂ (HasFate path) entries fates ∧
        f.warnings = fates.filterMap Fate.warning? := by
  intro h
  obtain ⟨f, -, hf, -⟩ := h "c.yml" longKeyed
    fun inner hmem => nomatch (Prod.mk.inj (List.mem_singleton.1 hmem)).1
  have hlong : ofEntries "c.yml" longKeyed = .error (.value .integerShown) :=
    foldlM_addEntry_of_isLongInteger "c.yml" longKeyed exists_isLongInteger_longKeyed {}
  exact nomatch hf.symm.trans hlong

theorem entries_set_or_warn_repeated :
    (∃ f fates, ofEntries "c.yml" repeatedEntries = .ok f ∧
      List.Forall₂ (HasFate "c.yml") repeatedEntries fates ∧
      f.warnings = fates.filterMap Fate.warning? ∧ f.options.find? .inputPath = some .null) ∧
    ofEntries "c.yml" [(.str "input", .str "b"), (.str sectionName, .dict repeatedEntries)] =
      ofEntries "c.yml" repeatedEntries ∧
    ofEntries "c.yml" longKeyed = .error (.value .integerShown) := by
  have hkeys : ∀ e ∈ repeatedEntries, ¬ e.1.IsLongInteger := by
    intro e he h
    simp only [repeatedEntries, List.mem_cons, List.not_mem_nil, or_false] at he
    rcases he with rfl | rfl | rfl | rfl <;> exact nomatch h
  obtain ⟨hread, -, hsection⟩ := entries_set_or_warn "c.yml" repeatedEntries
    fun inner hmem => by simp [repeatedEntries] at hmem
  obtain ⟨-, hlong, -⟩ := entries_set_or_warn "c.yml" longKeyed
    fun inner hmem => nomatch (Prod.mk.inj (List.mem_singleton.1 hmem)).1
  obtain ⟨f, fates, hf, hfates, -, hwarnings, hoptions, -, -⟩ := hread hkeys
  refine ⟨⟨f, fates, hf, hfates, hwarnings, (hoptions _ _).2 ?_⟩, ?_,
    hlong exists_isLongInteger_longKeyed⟩
  · refine ⟨[_, _], _, [_], rfl, .stored (.str "inputPath") .null .inputPath (by decide) ?_, ?_⟩
    · exact fun h => nomatch h
    · intro e' he' v' hfate
      rw [List.mem_singleton.1 he'] at hfate
      cases hfate with
      | stored _ _ _ _ hvalue => exact hvalue (.list [])
  · exact hsection [(.str "input", .str "b")] [] fun e he => by
      rw [List.mem_singleton.1 he]
      exact fun h => absurd (Value.str.inj h) (by decide)

end Entries

end FileOptions

end LocaleKeys
