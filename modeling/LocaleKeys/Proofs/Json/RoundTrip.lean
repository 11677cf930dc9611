import LocaleKeys.Proofs.Json.Strings

/-!
# Printed values read back

A *plain* value has no numbers, only scalar texts, and no name twice in an object. The reader gives
it back from its printed text (`read_print`), whatever stands behind it: the induction is on the
value, and it needs as much fuel as the text has characters, because every step of the reader
consumes at least one.
-/

namespace LocaleKeys

namespace Json

/-- Values without numbers whose texts are scalar and whose objects name no member twice. -/
inductive IsPlain : Json → Prop
  | null : IsPlain .null
  | bool (b : Bool) : IsPlain (.bool b)
  | str (t : Text) (ht : t.isScalar = true) : IsPlain (.str t)
  | arr (vs : List Json) (hvs : ∀ v ∈ vs, IsPlain v) : IsPlain (.arr vs)
  | obj (ms : List (Text × Json)) (hnames : (ms.map Prod.fst).Nodup)
      (hkeys : ∀ m ∈ ms, m.1.isScalar = true) (hvalues : ∀ m ∈ ms, IsPlain m.2) :
      IsPlain (.obj ms)

theorem skip_cons_of_not_blank (c : Char) (r : List Char) (h : isBlank c = false) :
    skip (c :: r) = c :: r := by
  simp [skip, h]

theorem skip_newLine (level : Nat) (r : List Char) :
    skip ((newLine level).toChars ++ r) = skip r := by
  refine List.dropWhile_append_of_pos ?_
  intro c hc
  simp only [newLine, Text.fill, Text.toChars_scalar_cons, List.mem_cons] at hc
  rcases hc with rfl | hc
  · decide
  · obtain ⟨d, hd, rfl⟩ := List.mem_map.1 hc
    rw [List.eq_of_mem_replicate hd]
    decide

/-- The printed text of a plain value does not begin with a blank, the end of an array or a byte
order mark. -/
theorem exists_head_render (v : Json) (hv : v.IsPlain) (level : Nat) :
    ∃ c cs, (render level v).toChars = c :: cs ∧ isBlank c = false ∧ c ≠ ']' ∧
      c ≠ '\uFEFF' := by
  cases hv with
  | null => exact ⟨'n', _, rfl, by decide, by decide, by decide⟩
  | bool b => cases b <;> exact ⟨_, _, rfl, by decide, by decide, by decide⟩
  | str t ht => exact ⟨'"', _, rfl, by decide, by decide, by decide⟩
  | arr vs hvs => cases vs <;> exact ⟨'[', _, rfl, by decide, by decide, by decide⟩
  | obj ms hnames hkeys hvalues =>
      cases ms <;> exact ⟨'\x7b', _, rfl, by decide, by decide, by decide⟩

theorem skip_render (v : Json) (hv : v.IsPlain) (level : Nat) (r : List Char) :
    skip ((render level v).toChars ++ r) = (render level v).toChars ++ r := by
  obtain ⟨c, cs, hcs, hblank, _⟩ := exists_head_render v hv level
  rw [hcs, List.cons_append, skip_cons_of_not_blank c _ hblank]

theorem exists_fuel_of_render_le (v : Json) (hv : v.IsPlain) (level fuel : Nat)
    (h : (render level v).length ≤ fuel) : ∃ n, fuel = n + 1 := by
  obtain ⟨c, cs, hcs, _⟩ := exists_head_render v hv level
  rw [← Text.length_toChars, hcs] at h
  exact Nat.exists_eq_add_one_of_ne_zero (Nat.pos_iff_ne_zero.1 (Nat.lt_of_lt_of_le (by simp) h))

theorem put_of_not_mem (key : Text) (v : Json) (ms : List (Text × Json))
    (h : key ∉ ms.map Prod.fst) : put key v ms = ms ++ [(key, v)] := by
  induction ms with
  | nil => rfl
  | cons m ms ih =>
      obtain ⟨k, w⟩ := m
      rw [List.map_cons] at h
      obtain ⟨hk, hms⟩ := List.ne_and_not_mem_of_not_mem_cons h
      rw [put, if_neg (Ne.symm hk), ih hms, List.cons_append]

theorem toChars_renderMember (level : Nat) (k : Text) (v : Json) :
    (renderMember level (k, v)).toChars =
      '"' :: (Text.toChars (k.flatMap escape) ++
        '"' :: ':' :: ' ' :: (render level v).toChars) := by
  rw [renderMember, Text.toChars_append, Text.toChars_append, toChars_quote]
  simp [Text.ofString]

theorem exists_renderItems_eq_append (v : Json) (vs : List Json) (level : Nat) :
    ∃ more, renderItems level (v :: vs) = render level v ++ more := by
  cases vs with
  | nil => exact ⟨[], (List.append_nil _).symm⟩
  | cons w vs => exact ⟨_, by rw [renderItems, List.append_assoc, List.append_assoc]⟩

theorem exists_renderMembers_eq_append (m : Text × Json) (ms : List (Text × Json)) (level : Nat) :
    ∃ more, renderMembers level (m :: ms) = renderMember level m ++ more := by
  cases ms with
  | nil => exact ⟨[], (List.append_nil _).symm⟩
  | cons n ms => exact ⟨_, by rw [renderMembers, List.append_assoc, List.append_assoc]⟩

theorem skip_newLine_renderItems (v : Json) (vs : List Json) (hv : v.IsPlain) (level : Nat)
    (r : List Char) :
    skip ((newLine level).toChars ++ ((renderItems level (v :: vs)).toChars ++ r)) =
        (renderItems level (v :: vs)).toChars ++ r ∧
      ∀ r', (renderItems level (v :: vs)).toChars ++ r ≠ ']' :: r' := by
  obtain ⟨c, cs, hcs, hblank, hend, _⟩ := exists_head_render v hv level
  obtain ⟨more, hmore⟩ := exists_renderItems_eq_append v vs level
  rw [skip_newLine, hmore, Text.toChars_append, hcs, List.cons_append, List.cons_append]
  refine ⟨skip_cons_of_not_blank c _ hblank, ?_⟩
  intro r' h
  exact hend (List.cons.inj h).1

theorem skip_newLine_renderMembers (m : Text × Json) (ms : List (Text × Json)) (level : Nat)
    (r : List Char) :
    skip ((newLine level).toChars ++ ((renderMembers level (m :: ms)).toChars ++ r)) =
        (renderMembers level (m :: ms)).toChars ++ r ∧
      ∀ r', (renderMembers level (m :: ms)).toChars ++ r ≠ '\x7d' :: r' := by
  obtain ⟨k, v⟩ := m
  obtain ⟨more, hmore⟩ := exists_renderMembers_eq_append (k, v) ms level
  rw [skip_newLine, hmore, Text.toChars_append, toChars_renderMember, List.cons_append,
    List.cons_append]
  refine ⟨skip_cons_of_not_blank '"' _ (by decide), ?_⟩
  intro r' h
  exact absurd (List.cons.inj h).1 (by decide)

/-- The reader gives a value back from its printed text, if it may take as many steps as the text
has characters. -/
def ReadsBack (v : Json) : Prop :=
  ∀ (level fuel : Nat) (rest : List Char), (render level v).length ≤ fuel →
    value fuel ((render level v).toChars ++ rest) = .ok (v, rest)

/-- One member is read; what follows it decides how the reader goes on. -/
theorem members_renderMember (k : Text) (v : Json) (hk : k.isScalar = true) (hv : v.IsPlain)
    (hback : v.ReadsBack) (level fuel : Nat) (hf : (render level v).length ≤ fuel)
    (done : List (Text × Json)) (more r : List Char) :
    (skip more = '\x7d' :: r →
      members (fuel + 1) done ((renderMember level (k, v)).toChars ++ more) =
        .ok (put k v done, r)) ∧
      (skip more = ',' :: r →
        members (fuel + 1) done ((renderMember level (k, v)).toChars ++ more) =
          members fuel (put k v done) (skip r)) := by
  have hblank : skip (' ' :: ((render level v).toChars ++ more)) =
      (render level v).toChars ++ more := by
    have hdrop : ∀ r : List Char, skip (' ' :: r) = skip r := fun _ => rfl
    rw [hdrop, skip_render v hv level more]
  rw [toChars_renderMember, List.cons_append, List.append_assoc, members,
    List.cons_append, List.cons_append, List.cons_append, string_flatMap_escape _ _ k hk]
  simp only [bind, Except.bind, skip_cons_of_not_blank ':' _ (by decide), hblank,
    hback level fuel more hf]
  constructor
  · intro hmore
    simp only [hmore]
  · intro hmore
    simp only [hmore]

/-- The members of an object are read one after the other, behind those read before them. -/
theorem members_renderMembers (ms : List (Text × Json)) (hne : ms ≠ [])
    (hkeys : ∀ m ∈ ms, m.1.isScalar = true) (hvalues : ∀ m ∈ ms, m.2.IsPlain)
    (hback : ∀ m ∈ ms, m.2.ReadsBack) (level fuel : Nat)
    (hf : (renderMembers level ms).length ≤ fuel) (done : List (Text × Json))
    (hnames : ((done ++ ms).map Prod.fst).Nodup) (tail rest : List Char)
    (htail : skip tail = '\x7d' :: rest) :
    members fuel done ((renderMembers level ms).toChars ++ tail) = .ok (done ++ ms, rest) := by
  induction ms generalizing done fuel with
  | nil => exact absurd rfl hne
  | cons m ms ih =>
      obtain ⟨k, v⟩ := m
      have hk := hkeys (k, v) List.mem_cons_self
      have hv := hvalues (k, v) List.mem_cons_self
      have hb := hback (k, v) List.mem_cons_self
      have hput : put k v done = done ++ [(k, v)] := by
        refine put_of_not_mem k v done fun hmem => ?_
        rw [List.map_append, List.nodup_append] at hnames
        exact hnames.2.2 k hmem k List.mem_cons_self rfl
      -- The last member is followed by the end of the object, every other one by a comma.
      cases ms with
      | nil =>
          rw [renderMembers] at hf ⊢
          have hlen : (render level v).length + 1 ≤ fuel := by
            simp only [renderMember, quote, List.length_append, List.length_cons] at hf
            omega
          obtain ⟨fuel, rfl⟩ := Nat.exists_eq_add_one_of_ne_zero (show fuel ≠ 0 by omega)
          rw [(members_renderMember k v hk hv hb level fuel (by omega) done tail rest).1 htail,
            hput]
      | cons n ms =>
          rw [renderMembers] at hf ⊢
          have hlen : (render level v).length + 1 ≤ fuel ∧
              (renderMembers level (n :: ms)).length + 1 ≤ fuel := by
            simp only [renderMember, quote, List.length_append, List.length_cons] at hf
            omega
          obtain ⟨fuel, rfl⟩ := Nat.exists_eq_add_one_of_ne_zero (show fuel ≠ 0 by omega)
          have hcomma : Text.toChars (Text.ofString ",") = [','] := rfl
          rw [Text.toChars_append, Text.toChars_append, Text.toChars_append, List.append_assoc,
            List.append_assoc, List.append_assoc, hcomma, List.singleton_append,
            (members_renderMember k v hk hv hb level fuel (by omega) done _ _).2
              (skip_cons_of_not_blank ',' _ (by decide))]
          have hdone : ((done ++ [(k, v)]) ++ n :: ms) = done ++ (k, v) :: n :: ms := by simp
          have hrest := ih (List.cons_ne_nil n ms)
            (fun m hm => hkeys m (List.mem_cons_of_mem _ hm))
            (fun m hm => hvalues m (List.mem_cons_of_mem _ hm))
            (fun m hm => hback m (List.mem_cons_of_mem _ hm)) fuel (by omega)
            (done ++ [(k, v)]) (by rw [hdone]; exact hnames)
          rw [hdone] at hrest
          simp only [(skip_newLine_renderMembers n ms level tail).1, hput]
          exact hrest

theorem elements_renderItems (vs : List Json) (hne : vs ≠ []) (hvalues : ∀ v ∈ vs, v.IsPlain)
    (hback : ∀ v ∈ vs, v.ReadsBack) (level fuel : Nat)
    (hf : (renderItems level vs).length < fuel) (tail rest : List Char)
    (htail : skip tail = ']' :: rest) :
    elements fuel ((renderItems level vs).toChars ++ tail) = .ok (vs, rest) := by
  induction vs generalizing fuel with
  | nil => exact absurd rfl hne
  | cons v vs ih =>
      have hb := hback v List.mem_cons_self
      obtain ⟨fuel, rfl⟩ := Nat.exists_eq_add_one_of_ne_zero (show fuel ≠ 0 by omega)
      cases vs with
      | nil =>
          rw [renderItems] at hf ⊢
          rw [elements, hb level fuel tail (by omega)]
          simp only [bind, Except.bind, htail]
      | cons w vs =>
          rw [renderItems] at hf ⊢
          have hlen : (render level v).length ≤ fuel ∧
              (renderItems level (w :: vs)).length < fuel := by
            simp only [List.length_append, Text.ofString, Text.ofChars] at hf
            simp at hf
            omega
          have hcomma : Text.toChars (Text.ofString ",") = [','] := rfl
          rw [Text.toChars_append, Text.toChars_append, Text.toChars_append, List.append_assoc,
            List.append_assoc, List.append_assoc, hcomma, List.singleton_append, elements,
            hb level fuel _ hlen.1]
          have hw := hvalues w (List.mem_cons_of_mem _ List.mem_cons_self)
          have hrest := ih (List.cons_ne_nil w vs)
            (fun v hv => hvalues v (List.mem_cons_of_mem _ hv))
            (fun v hv => hback v (List.mem_cons_of_mem _ hv)) fuel hlen.2
          simp only [bind, Except.bind, skip_cons_of_not_blank ',' _ (by decide),
            (skip_newLine_renderItems w vs hw level tail).1, hrest]
          rfl

theorem toChars_render_arr (level : Nat) (v : Json) (vs : List Json) (rest : List Char) :
    (render level (.arr (v :: vs))).toChars ++ rest =
      '[' :: ((newLine (level + 1)).toChars ++ ((renderItems (level + 1) (v :: vs)).toChars ++
        ((newLine level).toChars ++ ']' :: rest))) := by
  simp [render, Text.ofString]

theorem toChars_render_obj (level : Nat) (m : Text × Json) (ms : List (Text × Json))
    (rest : List Char) :
    (render level (.obj (m :: ms))).toChars ++ rest =
      '\x7b' :: ((newLine (level + 1)).toChars ++ ((renderMembers (level + 1) (m :: ms)).toChars ++
        ((newLine level).toChars ++ '\x7d' :: rest))) := by
  simp [render, Text.ofString]

theorem value_arr (fuel : Nat) (r : List Char) (h : ∀ r', skip r ≠ ']' :: r') :
    value (fuel + 1) ('[' :: r) =
      (elements fuel (skip r)).map fun (vs, r) => (.arr vs, r) := by
  rw [value]
  split
  · next hr => exact absurd hr (h _)
  · rfl

theorem value_obj (fuel : Nat) (r : List Char) (h : ∀ r', skip r ≠ '\x7d' :: r') :
    value (fuel + 1) ('\x7b' :: r) =
      (members fuel [] (skip r)).map fun (ms, r) => (.obj ms, r) := by
  rw [value]
  split
  · next hr => exact absurd hr (h _)
  · rfl

/-- The reader gives every plain value back. -/
theorem readsBack_of_isPlain (v : Json) (hv : v.IsPlain) : v.ReadsBack := by
  intro level fuel rest hf
  obtain ⟨fuel, rfl⟩ := exists_fuel_of_render_le v hv level fuel hf
  induction hv generalizing level fuel rest with
  | null => rfl
  | bool b => cases b <;> rfl
  | str t ht =>
      rw [render, toChars_quote, List.cons_append, List.append_assoc, value, List.singleton_append,
        string_flatMap_escape _ _ t ht]
      rfl
  | arr vs hvs ih =>
      cases vs with
      | nil => rfl
      | cons v vs =>
          have hlen : (renderItems (level + 1) (v :: vs)).length < fuel := by
            simp only [render, List.length_append, newLine, List.length_cons] at hf
            omega
          have hback : ∀ w ∈ v :: vs, w.ReadsBack := by
            intro w hw level fuel rest hf
            obtain ⟨fuel, rfl⟩ := exists_fuel_of_render_le w (hvs w hw) level fuel hf
            exact ih w hw level rest fuel hf
          have htail : skip ((newLine level).toChars ++ ']' :: rest) = ']' :: rest := by
            rw [skip_newLine, skip_cons_of_not_blank ']' _ (by decide)]
          obtain ⟨hskip, hopen⟩ := skip_newLine_renderItems v vs (hvs v List.mem_cons_self)
            (level + 1) ((newLine level).toChars ++ ']' :: rest)
          rw [toChars_render_arr, value_arr fuel _ (by rw [hskip]; exact hopen), hskip,
            elements_renderItems (v :: vs) (List.cons_ne_nil v vs) hvs hback (level + 1) fuel hlen _
              rest htail]
          rfl
  | obj ms hnames hkeys hvalues ih =>
      cases ms with
      | nil => rfl
      | cons m ms =>
          have hlen : (renderMembers (level + 1) (m :: ms)).length ≤ fuel := by
            simp only [render, List.length_append, newLine, List.length_cons] at hf
            omega
          have hback : ∀ n ∈ m :: ms, n.2.ReadsBack := by
            intro n hn level fuel rest hf
            obtain ⟨fuel, rfl⟩ := exists_fuel_of_render_le n.2 (hvalues n hn) level fuel hf
            exact ih n hn level rest fuel hf
          have htail : skip ((newLine level).toChars ++ '\x7d' :: rest) = '\x7d' :: rest := by
            rw [skip_newLine, skip_cons_of_not_blank '\x7d' _ (by decide)]
          obtain ⟨hskip, hopen⟩ := skip_newLine_renderMembers m ms (level + 1)
            ((newLine level).toChars ++ '\x7d' :: rest)
          rw [toChars_render_obj, value_obj fuel _ (by rw [hskip]; exact hopen), hskip,
            members_renderMembers (m :: ms) (List.cons_ne_nil m ms) hkeys hvalues hback (level + 1)
              fuel hlen [] hnames _ rest htail]
          rfl

theorem read_print_append (v : Json) (hv : v.IsPlain) (rest : List Char) (hrest : skip rest = []) :
    read ((print v).toChars ++ rest) = .ok v := by
  obtain ⟨c, cs, hcs, _, _, hmark⟩ := exists_head_render v hv 0
  have hvalue := readsBack_of_isPlain v hv 0
    (2 * ((render 0 v).toChars ++ rest).length + 2) rest
    (by rw [List.length_append, Text.length_toChars]; omega)
  have hall : readAll ((render 0 v).toChars ++ rest) = .ok v := by
    rw [readAll, skip_render v hv 0 rest, hvalue]
    · simp only [bind, Except.bind, hrest]
    · intro r hr
      rw [hcs] at hr
      exact hmark (List.cons.inj hr).1
  rw [print, read, hall]

/-- A printed plain value is read back. -/
theorem read_print (v : Json) (hv : v.IsPlain) : read (print v).toChars = .ok v := by
  rw [← List.append_nil (print v).toChars]
  exact read_print_append v hv [] rfl

theorem eq_of_print_eq (v w : Json) (hv : v.IsPlain) (hw : w.IsPlain) (h : print v = print w) :
    v = w := by
  have hread := read_print v hv
  rw [h, read_print w hw] at hread
  exact (Except.ok.inj hread).symm

end Json

end LocaleKeys
