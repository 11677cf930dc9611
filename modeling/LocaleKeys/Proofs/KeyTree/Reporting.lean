import LocaleKeys.Proofs.KeyTree.Addressing

/-!
# The report of misnamed keys

A key of a document stands at a place: the numbers of the members that lead to it, the keys above it
and the key itself (`Json.HasKeyAt`). Only objects are descended into, so what an array holds stands
at no place. Places are in the order of the document if their positions are in lexicographic order,
which puts a key before the keys below it.

The walk over a tree passes every place once and in that order (`pairwise_placesFrom`,
`mem_placesFrom_ofMembers_iff`), and `misnamed` lists the locations of those places whose key is
misnamed. So the report of `checkNames` is complete, in order, and cut off after five locations with
the right number behind them (`checkNames_reports`).
-/

namespace LocaleKeys

/-- Where a key stands in a document. -/
structure KeyPlace where
  /-- The numbers of the members on the way, that of the key last. -/
  position : List Nat
  above : List Text
  key : Text

namespace KeyPlace

/-- The place seen from the object around it, of which `key` is member number `n`. -/
def under (n : Nat) (key : Text) (p : KeyPlace) : KeyPlace :=
  { p with position := n :: p.position, above := key :: p.above }

def Precedes (p q : KeyPlace) : Prop := List.Lex (· < ·) p.position q.position

def IsMisnamed (p : KeyPlace) : Prop := p.key = [] ∨ KeyTree.separator ∈ p.key

/-- The keys above and then the key itself in brackets, joined by the separator. -/
def location (p : KeyPlace) : Text :=
  Text.join [KeyTree.separator] (p.above ++ ["[" ++ p.key ++ "]"])

end KeyPlace

namespace Json

/-- The places of the keys in the members of an object, inside objects only. -/
inductive HasKeyAt : List (Text × Json) → KeyPlace → Prop
  | here {members : List (Text × Json)} {n : Nat} {key : Text} {v : Json}
      (h : members[n]? = some (key, v)) : HasKeyAt members ⟨[n], [], key⟩
  | inside {members inner : List (Text × Json)} {n : Nat} {key : Text} {place : KeyPlace}
      (h : members[n]? = some (key, .obj inner)) (hp : HasKeyAt inner place) :
      HasKeyAt members (place.under n key)

inductive IsKeyOf (n : Nat) : Text × Json → KeyPlace → Prop
  | here {key : Text} {v : Json} : IsKeyOf n (key, v) ⟨[n], [], key⟩
  | inside {key : Text} {inner : List (Text × Json)} {place : KeyPlace}
      (hp : HasKeyAt inner place) : IsKeyOf n (key, .obj inner) (place.under n key)

theorem hasKeyAt_iff (members : List (Text × Json)) (place : KeyPlace) :
    HasKeyAt members place ↔ ∃ i m, members[i]? = some m ∧ IsKeyOf i m place := by
  constructor
  · intro h
    cases h with
    | here h => exact ⟨_, _, h, .here⟩
    | inside h hp => exact ⟨_, _, h, .inside hp⟩
  · rintro ⟨i, m, hm, h⟩
    cases h with
    | here => exact .here hm
    | inside hp => exact .inside hm hp

end Json

namespace KeyTree

/-- The places of all keys, a key before the keys below it; the entries are numbered from `n`. -/
def placesFrom {α : Type} (n : Nat) : KeyTree α → List KeyPlace
  | nil => []
  | leaf key _ rest => ⟨[n], [], key⟩ :: placesFrom (n + 1) rest
  | node key below rest =>
      ⟨[n], [], key⟩ :: ((placesFrom 0 below).map (KeyPlace.under n key) ++ placesFrom (n + 1) rest)

theorem position_of_mem_placesFrom {α : Type} (t : KeyTree α) (n : Nat) (p : KeyPlace)
    (h : p ∈ t.placesFrom n) : ∃ i ps, p.position = i :: ps ∧ n ≤ i := by
  induction t generalizing n with
  | nil => exact absurd h List.not_mem_nil
  | leaf key v rest ih =>
      rcases List.mem_cons.1 h with rfl | h
      · exact ⟨n, [], rfl, Nat.le_refl n⟩
      · obtain ⟨i, ps, hp, hi⟩ := ih (n + 1) h
        exact ⟨i, ps, hp, Nat.le_of_succ_le hi⟩
  | node key below rest _ ihr =>
      rcases List.mem_cons.1 h with rfl | h
      · exact ⟨n, [], rfl, Nat.le_refl n⟩
      rcases List.mem_append.1 h with h | h
      · obtain ⟨q, -, rfl⟩ := List.mem_map.1 h
        exact ⟨n, q.position, rfl, Nat.le_refl n⟩
      · obtain ⟨i, ps, hp, hi⟩ := ihr (n + 1) h
        exact ⟨i, ps, hp, Nat.le_of_succ_le hi⟩

theorem precedes_of_mem_placesFrom_succ {α : Type} (rest : KeyTree α) (n : Nat) (ps : List Nat)
    (p q : KeyPlace) (hp : p.position = n :: ps) (hq : q ∈ rest.placesFrom (n + 1)) :
    p.Precedes q := by
  obtain ⟨i, qs, hq, hi⟩ := position_of_mem_placesFrom rest (n + 1) q hq
  rw [KeyPlace.Precedes, hp, hq]
  exact .rel hi

/-- The walk passes the places in the order of the document. -/
theorem pairwise_placesFrom {α : Type} (t : KeyTree α) (n : Nat) :
    (t.placesFrom n).Pairwise KeyPlace.Precedes := by
  induction t generalizing n with
  | nil => exact .nil
  | leaf key v rest ih =>
      exact .cons (fun q => precedes_of_mem_placesFrom_succ rest n [] _ q rfl) (ih (n + 1))
  | node key below rest ihb ihr =>
      have hinside : ((below.placesFrom 0).map (KeyPlace.under n key)).Pairwise KeyPlace.Precedes :=
        List.pairwise_map.2 ((ihb 0).imp fun h => .cons h)
      refine .cons (fun q hq => ?_)
        (List.pairwise_append.2 ⟨hinside, ihr (n + 1), fun p hp q => ?_⟩)
      · rcases List.mem_append.1 hq with hq | hq
        · obtain ⟨p, hp, rfl⟩ := List.mem_map.1 hq
          obtain ⟨i, ps, hp, -⟩ := position_of_mem_placesFrom below 0 p hp
          rw [KeyPlace.Precedes, KeyPlace.under, hp]
          exact .cons .nil
        · exact precedes_of_mem_placesFrom_succ rest n [] _ q rfl hq
      · obtain ⟨p', -, rfl⟩ := List.mem_map.1 hp
        exact precedes_of_mem_placesFrom_succ rest n p'.position _ q rfl

mutual

/-- The walk over the tree of a document passes exactly the places of its keys. -/
theorem mem_placesFrom_ofMembers_iff (n : Nat) (place : KeyPlace) : (ms : List (Text × Json)) →
    (place ∈ (ofMembers ms).placesFrom n ↔
      ∃ i m, ms[i]? = some m ∧ Json.IsKeyOf (n + i) m place)
  | [] => by
      constructor
      · exact fun h => absurd h List.not_mem_nil
      · rintro ⟨i, m, h, -⟩
        exact nomatch h
  | m :: ms => by
      rw [ofMembers, mem_placesFrom_ofMember_iff n place (ofMembers ms) m,
        mem_placesFrom_ofMembers_iff (n + 1) place ms]
      constructor
      · rintro (h | ⟨i, m', hm, h⟩)
        · exact ⟨0, m, rfl, h⟩
        · exact ⟨i + 1, m', hm, Nat.succ_add_eq_add_succ n i ▸ h⟩
      · rintro ⟨i, m', hm, h⟩
        cases i with
        | zero => exact .inl (Option.some.inj hm ▸ h)
        | succ i => exact .inr ⟨i, m', hm, Nat.succ_add_eq_add_succ n i ▸ h⟩
termination_by structural ms => ms

theorem mem_placesFrom_ofMember_iff (n : Nat) (place : KeyPlace) (rest : KeyTree Json) :
    (m : Text × Json) → (place ∈ (ofMember rest m).placesFrom n ↔
      Json.IsKeyOf n m place ∨ place ∈ rest.placesFrom (n + 1))
  | (key, v) => mem_placesFrom_ofValue_iff n place key rest v
termination_by structural m => m

theorem mem_placesFrom_ofValue_iff (n : Nat) (place : KeyPlace) (key : Text) (rest : KeyTree Json) :
    (v : Json) → (place ∈ (ofValue key rest v).placesFrom n ↔
      Json.IsKeyOf n (key, v) place ∨ place ∈ rest.placesFrom (n + 1))
  | .obj ms => by
      have hms : ∀ p, p ∈ (ofMembers ms).placesFrom 0 ↔ Json.HasKeyAt ms p := by
        intro p
        rw [mem_placesFrom_ofMembers_iff 0 p ms, Json.hasKeyAt_iff]
        simp only [Nat.zero_add]
      rw [ofValue, placesFrom, List.mem_cons, List.mem_append, List.mem_map, ← or_assoc]
      refine or_congr_left ?_
      constructor
      · rintro (rfl | ⟨p, hp, rfl⟩)
        · exact .here
        · exact .inside ((hms p).1 hp)
      · intro h
        cases h with
        | here => exact .inl rfl
        | inside hp => exact .inr ⟨_, (hms _).2 hp, rfl⟩
  | .null | .bool _ | .int _ | .float _ | .str _ | .arr _ => by
      rw [ofValue, placesFrom, List.mem_cons]
      · refine or_congr_left ?_
        constructor
        · rintro rfl
          exact .here
        · intro h
          cases h with
          | here => rfl
      · exact fun _ => Json.noConfusion
termination_by structural v => v

end

theorem mem_places_ofMembers_iff (ms : List (Text × Json)) (place : KeyPlace) :
    place ∈ (ofMembers ms).placesFrom 0 ↔ Json.HasKeyAt ms place := by
  rw [mem_placesFrom_ofMembers_iff, Json.hasKeyAt_iff]
  simp only [Nat.zero_add]

theorem not_isName_iff (p : KeyPlace) : (!isName p.key) = true ↔ p.IsMisnamed := by
  rw [KeyPlace.IsMisnamed, ← Decidable.not_iff_not, Bool.not_eq_true, Bool.not_eq_false',
    isName_iff, not_or, ne_eq]

def misnamedPlaces {α : Type} (n : Nat) (t : KeyTree α) : List KeyPlace :=
  (t.placesFrom n).filter fun p => !isName p.key

theorem mem_misnamedPlaces_ofMembers_iff (ms : List (Text × Json)) (place : KeyPlace) :
    place ∈ (ofMembers ms).misnamedPlaces 0 ↔ Json.HasKeyAt ms place ∧ place.IsMisnamed := by
  rw [misnamedPlaces, List.mem_filter, mem_places_ofMembers_iff, not_isName_iff]

def locationBelow (above : List Text) (p : KeyPlace) : Text := location (above ++ p.above) p.key

theorem locationBelow_under (above : List Text) (n : Nat) (key : Text) (p : KeyPlace) :
    locationBelow above (p.under n key) = locationBelow (above ++ [key]) p := by
  rw [locationBelow, locationBelow, List.append_assoc]
  rfl

theorem misnamedKey_eq_map_locationBelow (above : List Text) (key : Text) (n : Nat) :
    misnamedKey above key =
      ([⟨[n], [], key⟩].filter fun p : KeyPlace => !isName p.key).map (locationBelow above) := by
  cases h : isName key <;> simp [misnamedKey, locationBelow, h]

theorem misnamed_eq_map_locationBelow {α : Type} (t : KeyTree α) (above : List Text) (n : Nat) :
    t.misnamed above = (t.misnamedPlaces n).map (locationBelow above) := by
  induction t generalizing above n with
  | nil => rfl
  | leaf key v rest ih =>
      rw [misnamed, ih above (n + 1), misnamedKey_eq_map_locationBelow above key n,
        ← List.map_append, misnamedPlaces, ← List.filter_append]
      rfl
  | node key below rest ihb ihr =>
      have hinside : (below.misnamedPlaces 0).map (locationBelow (above ++ [key])) =
          ((below.misnamedPlaces 0).map (KeyPlace.under n key)).map (locationBelow above) := by
        rw [List.map_map]
        exact List.map_congr_left fun p _ => (locationBelow_under above n key p).symm
      have hfilter : (below.misnamedPlaces 0).map (KeyPlace.under n key) =
          ((below.placesFrom 0).map (KeyPlace.under n key)).filter fun p => !isName p.key := by
        rw [List.filter_map]
        rfl
      rw [misnamed, ihb (above ++ [key]) 0, ihr above (n + 1), hinside, hfilter,
        misnamedKey_eq_map_locationBelow above key n, ← List.map_append, ← List.map_append,
        misnamedPlaces, ← List.filter_append, ← List.filter_append, List.append_assoc]
      rfl

example :
    (ofMembers [("a.b", .obj [("", .null)]), ("c", .arr [.obj [("d.e", .null)]])]).misnamed [] =
      ["[a.b]", "a.b.[]"] := by
  decide

theorem misnamedMessage_map_location (places : List KeyPlace) :
    misnamedMessage (places.map KeyPlace.location) =
      "Key names must be non-empty and must not contain '.': " ++
        Text.join ", " ((places.take 5).map fun place => "'" ++ place.location ++ "'") ++
        (if 5 < places.length then
          " (and " ++ Text.ofNat (places.length - 5) ++ " more)" else ([] : Text)) ++ "." := by
  simp only [misnamedMessage, shownLimit, ← List.map_take, List.map_map, List.length_map]
  rfl

end KeyTree

namespace Document

/-- A document without misnamed keys passes; otherwise all their locations are told. -/
theorem checkNames_cases {α : Type} (t : KeyTree α) :
    (t.misnamedPlaces 0 = [] ∧ checkNames t = .ok ()) ∨
      t.misnamedPlaces 0 ≠ [] ∧
        checkNames t = .error (.misnamedKeys ((t.misnamedPlaces 0).map KeyPlace.location)) := by
  have h : t.misnamed [] = (t.misnamedPlaces 0).map KeyPlace.location :=
    t.misnamed_eq_map_locationBelow [] 0
  rw [checkNames, h]
  cases t.misnamedPlaces 0 with
  | nil => exact .inl ⟨rfl, rfl⟩
  | cons p ps => exact .inr ⟨List.cons_ne_nil p ps, rfl⟩

/-- The check of the names accepts a document exactly if no key inside objects only is empty or
holds the separator. Otherwise it tells about all such keys in the order of the document, a key
before the keys below it and each once: the locations of the first five of them, and how many more
there are if there are more. -/
theorem checkNames_reports (members : List (Text × Json)) :
    ((∃ p, checkNames (KeyTree.ofMembers members) = .error p ∧ p.kind = .invalidKeyName) ↔
      ∃ place, Json.HasKeyAt members place ∧ place.IsMisnamed) ∧
    ∃ places : List KeyPlace, places.Pairwise KeyPlace.Precedes ∧
      (∀ place, place ∈ places ↔ Json.HasKeyAt members place ∧ place.IsMisnamed) ∧
      ((places = [] ∧ checkNames (KeyTree.ofMembers members) = .ok ()) ∨
        places ≠ [] ∧ ∃ p, checkNames (KeyTree.ofMembers members) = .error p ∧
          p.kind = .invalidKeyName ∧
          p.message = "Key names must be non-empty and must not contain '.': " ++
            Text.join ", " ((places.take 5).map fun place => "'" ++ place.location ++ "'") ++
            (if 5 < places.length then
              " (and " ++ Text.ofNat (places.length - 5) ++ " more)" else ([] : Text)) ++ ".") := by
  have hmem := KeyTree.mem_misnamedPlaces_ofMembers_iff members
  have hcases := checkNames_cases (KeyTree.ofMembers members)
  refine ⟨?_, (KeyTree.ofMembers members).misnamedPlaces 0, ?_, hmem, ?_⟩
  · constructor
    · rintro ⟨p, hp, -⟩
      rcases hcases with ⟨-, hok⟩ | ⟨hne, -⟩
      · rw [hok] at hp
        exact nomatch hp
      · obtain ⟨place, hplace⟩ := List.exists_mem_of_ne_nil _ hne
        exact ⟨place, (hmem place).1 hplace⟩
    · rintro ⟨place, hplace⟩
      rcases hcases with ⟨hnil, -⟩ | ⟨-, herror⟩
      · exact absurd ((hmem place).2 hplace) (hnil ▸ List.not_mem_nil)
      · exact ⟨_, herror, rfl⟩
  · exact (KeyTree.pairwise_placesFrom _ 0).filter _
  · refine hcases.imp id fun ⟨hne, herror⟩ => ⟨hne, _, herror, rfl, ?_⟩
    exact KeyTree.misnamedMessage_map_location _

end Document

end LocaleKeys
