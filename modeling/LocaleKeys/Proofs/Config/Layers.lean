import LocaleKeys.CommandLine.Arguments
import LocaleKeys.Config.File
import LocaleKeys.Proofs.Success
import Mathlib.Logic.Basic

/-!
# The values that layers give to an option

Options are set one after another: by the entries of an option file, then by the command line. What
an option is in the end depends on its own values only, and is the last of them
(`Layer.find?_foldl_set`). `FileOptions.named` lists the entries of a file that set an option, and
`Arguments.given` is what a command line sets.
-/

namespace LocaleKeys

namespace Layer

variable {κ : Type} [DecidableEq κ]

def valuesOf (name : κ) (l : Layer κ) : List Value := (l.filter (·.1 = name)).map (·.2)

theorem valuesOf_cons (name k : κ) (v : Value) (l : Layer κ) :
    valuesOf name ((k, v) :: l) = if k = name then v :: valuesOf name l else valuesOf name l := by
  rw [valuesOf, List.filter_cons]
  by_cases hk : k = name
  · rw [if_pos (decide_eq_true hk), if_pos hk, List.map_cons, valuesOf]
  · rw [if_neg (by simpa using hk), if_neg hk, valuesOf]

theorem valuesOf_append (name : κ) (l l' : Layer κ) :
    valuesOf name (l ++ l') = valuesOf name l ++ valuesOf name l' := by
  rw [valuesOf, List.filter_append, List.map_append, valuesOf, valuesOf]

theorem find?_cons (name k : κ) (v : Value) (l : Layer κ) :
    find? ((k, v) :: l) name = if name = k then some v else l.find? name := by
  rw [find?, List.lookup_cons]
  by_cases hk : name = k
  · rw [if_pos hk, hk, beq_self_eq_true]
  · rw [if_neg hk, beq_false_of_ne hk, find?]

theorem find?_set (l : Layer κ) (k name : κ) (v : Value) :
    (l.set k v).find? name = if name = k then some v else l.find? name := by
  induction l with
  | nil => rw [set, find?_cons]
  | cons e l ih =>
      obtain ⟨k', v'⟩ := e
      rw [set]
      by_cases hk : k' = k
      · rw [if_pos hk, hk, find?_cons, find?_cons]
        by_cases hname : name = k
        · rw [if_pos hname, if_pos hname]
        · rw [if_neg hname, if_neg hname, if_neg hname]
      · rw [if_neg hk, find?_cons, find?_cons, ih]
        by_cases hname : name = k'
        · rw [if_pos hname, if_pos hname, if_neg fun h => hk (hname.symm.trans h)]
        · rw [if_neg hname, if_neg hname]

/-- An option that is set several times keeps its last value. -/
theorem find?_foldl_set (l upper : Layer κ) (name : κ) :
    (upper.foldl (fun l e => l.set e.1 e.2) l).find? name =
      (valuesOf name upper).getLast?.or (l.find? name) := by
  induction upper generalizing l with
  | nil => rfl
  | cons e upper ih =>
      obtain ⟨k, v⟩ := e
      rw [List.foldl_cons, ih, find?_set, valuesOf_cons]
      by_cases hk : k = name
      · rw [if_pos hk.symm, if_pos hk, List.getLast?_cons]
        cases (valuesOf name upper).getLast? with
        | none => rfl
        | some v' => rfl
      · rw [if_neg fun h => hk h.symm, if_neg hk]

theorem overlay_eq_foldl_set (lower upper : Layer κ) (h : ∀ e ∈ upper, e.2 ≠ .null) :
    overlay lower upper = upper.foldl (fun l e => l.set e.1 e.2) lower := by
  rw [overlay]
  induction upper generalizing lower with
  | nil => rfl
  | cons e upper ih =>
      obtain ⟨k, v⟩ := e
      have hv : v ≠ .null := h (k, v) List.mem_cons_self
      have hupper : ∀ e ∈ upper, e.2 ≠ .null := fun e he => h e (List.mem_cons_of_mem _ he)
      rw [List.foldl_cons, List.foldl_cons, ← ih _ hupper]
      cases v with
      | null => exact absurd rfl hv
      | _ => rfl

end Layer

namespace FileOptions

/-- What an entry of an option file sets: the option that its key spells, unless its value is a list
or a mapping. -/
def named? : Value × Value → Option (OptionName × Value)
  | (_, .list _) | (_, .dict _) => none
  | (key, v) => (key.message.toOption.bind OptionName.ofSpelling?).map (·, v)

/-- What the mapping in an option file sets, entry after entry. -/
def named (entries : List (Value × Value)) : Options := (effective entries).filterMap named?

theorem options_of_addEntry_eq_ok (path : Text) (f f' : FileOptions) (e : Value × Value)
    (h : addEntry path f e.1 e.2 = .ok f') :
    f'.options = (named? e).toList.foldl (fun l e => l.set e.1 e.2) f.options := by
  obtain ⟨key, v⟩ := e
  obtain ⟨spelling, hspelling, h⟩ := exists_of_bind_eq_ok _ _ _ h
  have hkey : key.message.toOption = some spelling := by
    rw [(mapError_eq_ok_iff _ _ _).1 hspelling]
    rfl
  cases hname : OptionName.ofSpelling? spelling with
  | none =>
      have hnamed : named? (key, v) = none := by
        cases v <;> simp [named?, hkey, hname]
      rw [hname] at h
      rw [hnamed, ← Except.ok.inj h]
      rfl
  | some name =>
      rw [hname] at h
      cases v with
      | list items =>
          rw [← Except.ok.inj h]
          rfl
      | dict es =>
          rw [← Except.ok.inj h]
          rfl
      | _ =>
          rw [← Except.ok.inj h, named?, hkey, Option.bind_some, hname]
          · rfl
          all_goals exact fun _ h => nomatch h

theorem options_of_foldlM_addEntry_eq_ok (path : Text) (entries : List (Value × Value))
    (f f' : FileOptions)
    (h : entries.foldlM (fun f e => addEntry path f e.1 e.2) f = .ok f') :
    f'.options = (entries.filterMap named?).foldl (fun l e => l.set e.1 e.2) f.options := by
  induction entries generalizing f with
  | nil => rw [← Except.ok.inj h]; rfl
  | cons e entries ih =>
      obtain ⟨f₁, hentry, hentries⟩ := exists_of_bind_eq_ok _ _ _ h
      rw [ih f₁ hentries, options_of_addEntry_eq_ok path f f₁ e hentry, List.filterMap_cons]
      cases named? e with
      | none => rfl
      | some e' => rfl

/-- The value that a file gives to an option is the last one that it names. -/
theorem find?_options_of_ofEntries_eq_ok (path : Text) (entries : List (Value × Value))
    (f : FileOptions) (h : ofEntries path entries = .ok f) (name : OptionName) :
    f.options.find? name = (Layer.valuesOf name (named entries)).getLast? := by
  rw [options_of_foldlM_addEntry_eq_ok path _ _ _ h, ← named, Layer.find?_foldl_set]
  exact Option.or_none

end FileOptions

namespace Arguments

/-- What a command line sets an option to, if it is given there. The formatter cannot be given, and
flags can only be switched on. -/
def given (a : Arguments) : OptionName → Option Value
  | .inputPath => a.inputPath.map .str
  | .outputPath => a.outputPath.map .str
  | .excludeKey => a.excludeKey.map .str
  | .outputMode => a.outputMode.map .str
  | .disableEslintQuotes => if a.disableEslintQuotes then some (.bool true) else none
  | .format => if a.format then some (.bool true) else none
  | .formatter => none
  | .noEmit => if a.noEmit then some (.bool true) else none

theorem given_ne_some_null (a : Arguments) (name : OptionName) : a.given name ≠ some .null := by
  cases name <;> simp [given]

theorem overrides_eq (a : Arguments) :
    a.overrides = OptionName.all.flatMap fun name => (a.given name).toList.map (name, ·) := by
  simp only [overrides, OptionName.all, List.flatMap_cons, List.flatMap_nil, given,
    List.append_assoc, List.append_nil, Option.toList_none, List.map_nil, List.nil_append]
  refine congrArg₂ _ ?_ (congrArg₂ _ ?_ (congrArg₂ _ ?_ (congrArg₂ _ ?_ (congrArg₂ _ ?_
    (congrArg₂ _ ?_ ?_)))))
  · cases a.inputPath <;> rfl
  · cases a.outputPath <;> rfl
  · cases a.excludeKey <;> rfl
  · cases a.outputMode <;> rfl
  · cases a.disableEslintQuotes <;> rfl
  · cases a.format <;> rfl
  · cases a.noEmit <;> rfl

theorem valuesOf_overrides (a : Arguments) (name : OptionName) :
    Layer.valuesOf name a.overrides = (a.given name).toList := by
  have hpart (name' : OptionName) :
      Layer.valuesOf name ((a.given name').toList.map (name', ·)) =
        if name' = name then (a.given name').toList else [] := by
    cases a.given name' with
    | none => exact (ite_self _).symm
    | some v => exact Layer.valuesOf_cons name name' v []
  simp only [overrides_eq, OptionName.all, List.flatMap_cons, List.flatMap_nil,
    Layer.valuesOf_append, hpart]
  cases name <;> simp [Layer.valuesOf]

theorem ne_null_of_mem_overrides (a : Arguments) (e : OptionName × Value) (he : e ∈ a.overrides) :
    e.2 ≠ .null := by
  rw [overrides_eq, List.mem_flatMap] at he
  obtain ⟨name, -, hmem⟩ := he
  obtain ⟨v, hv, rfl⟩ := List.mem_map.1 hmem
  rintro rfl
  exact a.given_ne_some_null name (Option.mem_toList.1 hv)

end Arguments

/-- The command line goes before the option file. -/
theorem FileOptions.find?_overlay_overrides (path : Text) (entries : List (Value × Value))
    (f : FileOptions) (h : FileOptions.ofEntries path entries = .ok f) (a : Arguments)
    (name : OptionName) :
    (Layer.overlay f.options a.overrides).find? name =
      (a.given name).or (Layer.valuesOf name (FileOptions.named entries)).getLast? := by
  rw [Layer.overlay_eq_foldl_set _ _ a.ne_null_of_mem_overrides, Layer.find?_foldl_set,
    a.valuesOf_overrides, FileOptions.find?_options_of_ofEntries_eq_ok path entries f h]
  cases a.given name with
  | none => rfl
  | some v => rfl

end LocaleKeys
