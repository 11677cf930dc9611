import LocaleKeys.Document.Loading
import LocaleKeys.Proofs.KeyTree.Shape
import LocaleKeys.Proofs.Success

/-!
# Objects that are read name no member twice

The reader puts a repeated name in the place of the first one, so that the objects it makes have
distinct names, those inside them too. The tree of such a document has distinct keys. Objects inside
arrays are not looked at: an array is a leaf.
-/

namespace LocaleKeys

namespace Json

/-- Whether the objects that are reached through objects name no member twice. -/
inductive HasDistinctNames : Json → Prop
  | value (v : Json) (h : ∀ ms, v ≠ .obj ms) : HasDistinctNames v
  | object (ms : List (Text × Json)) (hnames : (ms.map Prod.fst).Nodup)
      (hvalues : ∀ m ∈ ms, HasDistinctNames m.2) : HasDistinctNames (.obj ms)

theorem mem_put (key : Text) (v : Json) (ms : List (Text × Json)) (m : Text × Json)
    (h : m ∈ put key v ms) : m = (key, v) ∨ m ∈ ms := by
  induction ms with
  | nil => exact .inl (List.mem_singleton.1 h)
  | cons n ms ih =>
      obtain ⟨k, w⟩ := n
      rw [put] at h
      split at h
      · next hk =>
          rcases List.mem_cons.1 h with rfl | h
          · exact .inl (by rw [hk])
          · exact .inr (List.mem_cons_of_mem _ h)
      · rcases List.mem_cons.1 h with rfl | h
        · exact .inr List.mem_cons_self
        · exact (ih h).imp id (List.mem_cons_of_mem _)

theorem map_fst_put (key : Text) (v : Json) (ms : List (Text × Json)) :
    (put key v ms).map Prod.fst =
      if key ∈ ms.map Prod.fst then ms.map Prod.fst else ms.map Prod.fst ++ [key] := by
  induction ms with
  | nil => rfl
  | cons n ms ih =>
      obtain ⟨k, w⟩ := n
      rw [put]
      split
      · next hk => simp [hk]
      · next hk =>
          have hk' : key ≠ k := Ne.symm hk
          rw [List.map_cons, List.map_cons, ih]
          by_cases hmem : key ∈ ms.map Prod.fst
          · rw [if_pos hmem, if_pos (List.mem_cons_of_mem _ hmem)]
          · rw [if_neg hmem, if_neg (List.not_mem_cons_of_ne_of_not_mem hk' hmem)]
            rfl

theorem nodup_map_fst_put (key : Text) (v : Json) (ms : List (Text × Json))
    (h : (ms.map Prod.fst).Nodup) : ((put key v ms).map Prod.fst).Nodup := by
  rw [map_fst_put]
  split
  · exact h
  · next hkey =>
      refine List.nodup_append.2 ⟨h, by simp, ?_⟩
      rintro a ha b hb rfl
      exact hkey (List.mem_singleton.1 hb ▸ ha)

theorem ne_obj_of_ok (v w : Json) (r s : List Char) (hv : ∀ ms, v ≠ .obj ms)
    (h : Except.ok (ε := Stop) (v, r) = .ok (w, s)) : ∀ ms, w ≠ .obj ms := by
  obtain ⟨rfl, -⟩ := Prod.mk.inj (Except.ok.inj h)
  exact hv

theorem ne_obj_of_numberAfter (negative : Bool) (ds cs : List Char) (v : Json) (r : List Char)
    (h : numberAfter negative ds cs = .ok (v, r)) : ∀ ms, v ≠ .obj ms := by
  simp only [numberAfter] at h
  split at h
  · split at h
    · exact nomatch h
    · exact ne_obj_of_ok _ v _ r (by simp) h
  · exact ne_obj_of_ok _ v _ r (by simp) h

theorem ne_obj_of_number (cs : List Char) (v : Json) (r : List Char)
    (h : number cs = .ok (v, r)) : ∀ ms, v ≠ .obj ms := by
  simp only [number] at h
  split at h
  · exact ne_obj_of_numberAfter _ _ _ v r h
  · split at h
    · exact nomatch h
    · exact ne_obj_of_numberAfter _ _ _ v r h

theorem exists_of_value_eq_ok (fuel : Nat) (cs : List Char) (v : Json) (r : List Char)
    (h : value (fuel + 1) cs = .ok (v, r)) :
    (∀ ms, v ≠ .obj ms) ∨ v = .obj [] ∨
      ∃ ms q q', v = .obj ms ∧ members fuel [] q = .ok (ms, q') := by
  unfold value at h
  split at h
  · obtain ⟨⟨t, q⟩, -, h⟩ := exists_of_map_eq_ok _ _ _ h
    obtain ⟨rfl, -⟩ := Prod.mk.inj h
    exact .inl (by simp)
  · split at h
    · obtain ⟨rfl, -⟩ := Prod.mk.inj (Except.ok.inj h)
      exact .inr (.inl rfl)
    · obtain ⟨⟨ms, q⟩, hms, h⟩ := exists_of_map_eq_ok _ _ _ h
      obtain ⟨rfl, -⟩ := Prod.mk.inj h
      exact .inr (.inr ⟨ms, _, q, rfl, hms⟩)
  · split at h
    · exact .inl (ne_obj_of_ok _ v _ r (by simp) h)
    · obtain ⟨⟨vs, q⟩, -, h⟩ := exists_of_map_eq_ok _ _ _ h
      obtain ⟨rfl, -⟩ := Prod.mk.inj h
      exact .inl (by simp)
  iterate 6 exact .inl (ne_obj_of_ok _ v _ r (by simp) h)
  · exact .inl (ne_obj_of_number _ v r h)

theorem exists_of_members_eq_ok (fuel : Nat) (done ms : List (Text × Json)) (cs r : List Char)
    (h : members (fuel + 1) done cs = .ok (ms, r)) :
    ∃ key v q q', value fuel q = .ok (v, q') ∧
      (ms = put key v done ∨ ∃ q'', members fuel (put key v done) q'' = .ok (ms, r)) := by
  unfold members at h
  split at h
  · obtain ⟨⟨key, q₁⟩, -, h⟩ := exists_of_bind_eq_ok _ _ _ h
    simp only at h
    split at h
    · obtain ⟨⟨v, q₂⟩, hv, h⟩ := exists_of_bind_eq_ok _ _ _ h
      simp only at h
      split at h
      · obtain ⟨rfl, -⟩ := Prod.mk.inj (Except.ok.inj h)
        exact ⟨key, v, _, q₂, hv, .inl rfl⟩
      · exact ⟨key, v, _, q₂, hv, .inr ⟨_, h⟩⟩
      · exact nomatch h
    · exact nomatch h
  · exact nomatch h

/-- What is read has distinct names. The induction is on the fuel, for values and for members at
once; the names of the members read so far are distinct at every step. -/
theorem hasDistinctNames_of_value_members (fuel : Nat) :
    (∀ (cs : List Char) (v : Json) (r : List Char), value fuel cs = .ok (v, r) →
      v.HasDistinctNames) ∧
    ∀ (done ms : List (Text × Json)) (cs r : List Char), (done.map Prod.fst).Nodup →
      (∀ m ∈ done, m.2.HasDistinctNames) → members fuel done cs = .ok (ms, r) →
        (ms.map Prod.fst).Nodup ∧ ∀ m ∈ ms, m.2.HasDistinctNames := by
  induction fuel with
  | zero =>
      constructor
      · intro cs v r h
        rw [value] at h
        exact nomatch h
      · intro done ms cs r _ _ h
        rw [members] at h
        exact nomatch h
  | succ fuel ih =>
      obtain ⟨ihv, ihm⟩ := ih
      constructor
      · intro cs v r h
        rcases exists_of_value_eq_ok fuel cs v r h with hv | rfl | ⟨ms, q, q', rfl, hms⟩
        · exact .value v hv
        · exact .object [] List.nodup_nil fun m hm => nomatch hm
        · obtain ⟨hnames, hvalues⟩ := ihm [] ms q q' List.nodup_nil (fun m hm => nomatch hm) hms
          exact .object ms hnames hvalues
      · intro done ms cs r hnodup hdone h
        obtain ⟨key, v, q, q', hv, h⟩ := exists_of_members_eq_ok fuel done ms cs r h
        have hnodup' := nodup_map_fst_put key v done hnodup
        have hdone' : ∀ m ∈ put key v done, m.2.HasDistinctNames := by
          intro m hm
          rcases mem_put key v done m hm with rfl | hm
          · exact ihv q v q' hv
          · exact hdone m hm
        rcases h with rfl | ⟨q'', h⟩
        · exact ⟨hnodup', hdone'⟩
        · exact ihm _ ms q'' r hnodup' hdone' h

/-- A document that is read has distinct names. -/
theorem hasDistinctNames_of_read (doc : List Char) (v : Json) (h : read doc = .ok v) :
    v.HasDistinctNames := by
  unfold read at h
  split at h
  · next w hw =>
      obtain rfl := Except.ok.inj h
      unfold readAll at hw
      split at hw
      · exact nomatch hw
      · rcases hv : value (2 * doc.length + 2) (skip doc) with e | ⟨w', q⟩
        · rw [hv] at hw
          exact nomatch hw
        · simp only [hv, bind, Except.bind] at hw
          split at hw
          · obtain rfl := Except.ok.inj hw
            exact (hasDistinctNames_of_value_members _).1 _ _ q hv
          · exact nomatch hw
  · exact nomatch h
  · exact nomatch h

end Json

namespace KeyTree

theorem keys_ofMembers (ms : List (Text × Json)) : (ofMembers ms).keys = ms.map Prod.fst := by
  induction ms with
  | nil => rfl
  | cons m ms ih =>
      obtain ⟨k, v⟩ := m
      cases v <;> exact congrArg (k :: ·) ih

theorem hasDistinctKeys_ofValue (key : Text) (rest : KeyTree Json) (v : Json)
    (hkey : key ∉ rest.keys) (hrest : rest.HasDistinctKeys)
    (hv : ∀ ms, v = .obj ms → (ofMembers ms).HasDistinctKeys) :
    (ofValue key rest v).HasDistinctKeys := by
  cases v with
  | obj ms => exact ⟨hkey, hv ms rfl, hrest⟩
  | null => exact ⟨hkey, hrest⟩
  | bool b => exact ⟨hkey, hrest⟩
  | int n => exact ⟨hkey, hrest⟩
  | float x => exact ⟨hkey, hrest⟩
  | str t => exact ⟨hkey, hrest⟩
  | arr vs => exact ⟨hkey, hrest⟩

theorem hasDistinctKeys_ofMembers (ms : List (Text × Json))
    (h : (Json.obj ms).HasDistinctNames) : (ofMembers ms).HasDistinctKeys := by
  have hall : ∀ v : Json, v.HasDistinctNames →
      ∀ ms, v = .obj ms → (ofMembers ms).HasDistinctKeys := by
    intro v hv
    induction hv with
    | value v hv =>
        intro ms hms
        exact absurd hms (hv ms)
    | object ns hnames hvalues ih =>
        rintro ms ⟨⟩
        induction ns with
        | nil => exact trivial
        | cons n ns ihns =>
            obtain ⟨k, v⟩ := n
            obtain ⟨hk, hnames⟩ := List.nodup_cons.1 hnames
            refine hasDistinctKeys_ofValue k (ofMembers ns) v ?_ ?_ ?_
            · rw [keys_ofMembers]
              exact hk
            · exact ihns hnames (fun n hn => hvalues n (List.mem_cons_of_mem _ hn))
                fun n hn => ih n (List.mem_cons_of_mem _ hn)
            · exact ih (k, v) List.mem_cons_self
  exact hall (.obj ms) h ms rfl

theorem hasDistinctKeys_of_find {α : Type} (t below : KeyTree α) (key : Text)
    (ht : t.HasDistinctKeys) (h : t.find key = .node below) : below.HasDistinctKeys := by
  induction t with
  | nil => exact nomatch h
  | leaf k v rest ih =>
      rw [find] at h
      split at h
      · exact nomatch h
      · exact ih ht.2 h
  | node k b rest _ ih =>
      rw [find] at h
      split at h
      · obtain rfl := Found.node.inj h
        exact ht.2.1
      · exact ih ht.2.2 h

end KeyTree

namespace Document

theorem hasDistinctKeys_of_parse (path : Text) (bytes : Bytes) (t : KeyTree Json)
    (h : parse path bytes = .ok t) : t.HasDistinctKeys := by
  unfold parse at h
  split at h
  · exact nomatch h
  · split at h
    · exact nomatch h
    · exact nomatch h
    · next ms hread =>
        obtain rfl := Except.ok.inj h
        exact KeyTree.hasDistinctKeys_ofMembers ms (Json.hasDistinctNames_of_read _ _ hread)
    · exact nomatch h

theorem hasDistinctKeys_of_unwrapped (key : Option Text) (t u : KeyTree Json)
    (ht : t.HasDistinctKeys) (h : unwrapped key t = .ok u) : u.HasDistinctKeys := by
  unfold unwrapped at h
  split at h
  · exact Except.ok.inj h ▸ ht
  · exact Except.ok.inj h ▸ ht
  · split at h
    · exact Except.ok.inj h ▸ ht
    · next k _ _ below hfind =>
        exact Except.ok.inj h ▸ KeyTree.hasDistinctKeys_of_find t below k ht hfind
    · exact nomatch h

end Document

end LocaleKeys
