import LocaleKeys.Proofs.Json.Distinct
import LocaleKeys.Proofs.Json.RoundTrip
import LocaleKeys.Proofs.KeyTree.Agreement
import LocaleKeys.Proofs.Text.Utf8

/-!
# Printed trees

A tree of texts is printed as the object of its members. Between its strings stands nothing but
layout, so that a property of all code points of the printed text is one of its keys and leaves
(`forall_mem_print_toMembers`): the text can be written if the keys and the leaves can, and it never
holds a carriage return. Stored as a document it gives the tree back.
-/

namespace LocaleKeys

namespace Json

/-- The code points that stand outside the strings of an object of objects and strings. -/
def layout : Text := "\n \x7b\x7d:,"

theorem mem_layout_of_mem_newLine (level : Nat) (c : CodePoint) (h : c ∈ newLine level) :
    c ∈ layout := by
  rcases List.mem_cons.1 h with rfl | h
  · decide
  · rw [List.eq_of_mem_replicate h]
    decide

theorem forall_mem_renderMember (p : CodePoint → Prop) (hp : ∀ c ∈ layout, p c) (level : Nat)
    (k : Text) (v : Json) :
    (∀ c ∈ renderMember level (k, v), p c) ↔
      (∀ c ∈ quote k, p c) ∧ ∀ c ∈ render level v, p c := by
  have hcolon : ∀ c ∈ Text.ofString ": ", p c := by
    intro c hc
    refine hp c ?_
    revert c
    decide
  rw [renderMember, List.forall_mem_append, List.forall_mem_append]
  exact ⟨fun h => ⟨h.1.1, h.2⟩, fun h => ⟨⟨h.1, hcolon⟩, h.2⟩⟩

theorem forall_mem_renderMembers (p : CodePoint → Prop) (hp : ∀ c ∈ layout, p c) (level : Nat)
    (ms : List (Text × Json)) :
    (∀ c ∈ renderMembers level ms, p c) ↔ ∀ m ∈ ms, ∀ c ∈ renderMember level m, p c := by
  induction ms with
  | nil => simp [renderMembers]
  | cons m ms ih =>
      cases ms with
      | nil => simp [renderMembers]
      | cons n ms =>
          have hcomma : ∀ c ∈ Text.ofString ",", p c := fun c hc => by
            rw [List.mem_singleton.1 hc]
            exact hp _ (by decide)
          have hline : ∀ c ∈ newLine level, p c := fun c hc =>
            hp c (mem_layout_of_mem_newLine level c hc)
          rw [renderMembers, List.forall_mem_append, List.forall_mem_append,
            List.forall_mem_append, ih]
          constructor
          · intro h
            exact List.forall_mem_cons.2 ⟨h.1.1.1, h.2⟩
          · intro h
            obtain ⟨hm, hms⟩ := List.forall_mem_cons.1 h
            exact ⟨⟨⟨hm, hcomma⟩, hline⟩, hms⟩

theorem forall_mem_render_obj (p : CodePoint → Prop) (hp : ∀ c ∈ layout, p c) (level : Nat)
    (ms : List (Text × Json)) :
    (∀ c ∈ render level (.obj ms), p c) ↔
      ∀ m ∈ ms, ∀ c ∈ renderMember (level + 1) m, p c := by
  have hbrace : ∀ s : Text, (∀ c ∈ s, c ∈ layout) → ∀ c ∈ s, p c := fun s hs c hc => hp c (hs c hc)
  cases ms with
  | nil =>
      refine ⟨fun _ m hm => (nomatch hm), fun _ => ?_⟩
      exact hbrace "\x7b\x7d" (by decide)
  | cons m ms =>
      have hopen : ∀ c ∈ Text.ofString "\x7b", p c := hbrace _ (by decide)
      have hclose : ∀ c ∈ Text.ofString "\x7d", p c := hbrace _ (by decide)
      have hline : ∀ n, ∀ c ∈ newLine n, p c := fun n =>
        hbrace _ (mem_layout_of_mem_newLine n)
      rw [render, List.forall_mem_append, List.forall_mem_append, List.forall_mem_append,
        List.forall_mem_append, forall_mem_renderMembers p hp]
      exact ⟨fun h => h.1.1.2, fun h => ⟨⟨⟨⟨hopen, hline _⟩, h⟩, hline _⟩, hclose⟩⟩

end Json

namespace KeyTree

/-- Whether all keys can be written as bytes. -/
def HasScalarKeys {α : Type} (t : KeyTree α) : Prop := ∀ k ∈ t.allKeys, k.isScalar = true

instance decidableHasScalarKeys {α : Type} (t : KeyTree α) : Decidable t.HasScalarKeys :=
  inferInstanceAs (Decidable (∀ k ∈ t.allKeys, k.isScalar = true))

theorem isScalar_pathsAfter {α : Type} (t : KeyTree α) (before : Text)
    (hbefore : before.isScalar = true) (ht : t.HasScalarKeys) :
    ∀ p ∈ t.pathsAfter before, p.isScalar = true := by
  induction t generalizing before with
  | nil => exact fun p hp => nomatch hp
  | leaf key v rest ih =>
      obtain ⟨hkey, hrest⟩ := List.forall_mem_cons.1 ht
      refine List.forall_mem_cons.2 ⟨?_, ih before hbefore hrest⟩
      rw [Text.isScalar_append, hbefore, hkey]
      rfl
  | node key below rest ihb ihr =>
      obtain ⟨hkey, ht⟩ := List.forall_mem_cons.1 ht
      obtain ⟨hbelow, hrest⟩ := List.forall_mem_append.1 ht
      refine List.forall_mem_append.2 ⟨ihb _ ?_ hbelow, ihr before hbefore hrest⟩
      rw [Text.isScalar_append, Text.isScalar_append, hbefore, hkey]
      rfl

theorem isScalar_paths {α : Type} (t : KeyTree α) (ht : t.HasScalarKeys) :
    ∀ p ∈ t.paths [], p.isScalar = true := by
  rw [paths_eq_pathsAfter]
  exact isScalar_pathsAfter t [] rfl ht

theorem ofMembers_toMembers (t : KeyTree Text) : ofMembers t.toMembers = t.map .str := by
  induction t with
  | nil => rfl
  | leaf key v rest ih => exact congrArg (leaf key (.str v)) ih
  | node key below rest ihb ihr => exact congr (congrArg (node key) ihb) ihr

theorem map_fst_toMembers (t : KeyTree Text) : t.toMembers.map Prod.fst = t.keys := by
  induction t with
  | nil => rfl
  | leaf key v rest ih => exact congrArg (key :: ·) ih
  | node key below rest _ ihr => exact congrArg (key :: ·) ihr

theorem leaves_map {α β : Type} (f : α → β) (t : KeyTree α) :
    (t.map f).leaves = t.leaves.map f := by
  induction t with
  | nil => rfl
  | leaf key v rest ih => exact congrArg (f v :: ·) ih
  | node key below rest ihb ihr => rw [map, leaves, leaves, List.map_append, ihb, ihr]

theorem isPlain_obj_cons (k : Text) (v : Json) (ms : List (Text × Json)) (hk : k.isScalar = true)
    (hv : v.IsPlain) (hkey : k ∉ ms.map Prod.fst) (hms : (Json.obj ms).IsPlain) :
    (Json.obj ((k, v) :: ms)).IsPlain := by
  cases hms with
  | obj ms hnames hkeys hvalues =>
      refine .obj _ (List.nodup_cons.2 ⟨hkey, hnames⟩) ?_ ?_
      · exact List.forall_mem_cons.2 ⟨hk, hkeys⟩
      · exact List.forall_mem_cons.2 ⟨hv, hvalues⟩

/-- A tree of texts is printed so that it can be read back, if its keys are distinct and all texts
can be written. -/
theorem isPlain_toMembers (t : KeyTree Text) (hdistinct : t.HasDistinctKeys)
    (hkeys : t.HasScalarKeys) (hleaves : ∀ l ∈ t.leaves, l.isScalar = true) :
    (Json.obj t.toMembers).IsPlain := by
  induction t with
  | nil => exact .obj [] List.nodup_nil (fun m hm => nomatch hm) (fun m hm => nomatch hm)
  | leaf key v rest ih =>
      obtain ⟨hkey, hrest⟩ := List.forall_mem_cons.1 hkeys
      obtain ⟨hv, hleaves⟩ := List.forall_mem_cons.1 hleaves
      refine isPlain_obj_cons key (.str v) rest.toMembers hkey (.str v hv) ?_
        (ih hdistinct.2 hrest hleaves)
      rw [map_fst_toMembers]
      exact hdistinct.1
  | node key below rest ihb ihr =>
      obtain ⟨hkey, hkeys⟩ := List.forall_mem_cons.1 hkeys
      obtain ⟨hbelow, hrest⟩ := List.forall_mem_append.1 hkeys
      obtain ⟨hlbelow, hlrest⟩ := List.forall_mem_append.1 hleaves
      refine isPlain_obj_cons key (.obj below.toMembers) rest.toMembers hkey
        (ihb hdistinct.2.1 hbelow hlbelow) ?_ (ihr hdistinct.2.2 hrest hlrest)
      rw [map_fst_toMembers]
      exact hdistinct.1

/-- A property of layout holds throughout a printed tree exactly if it holds throughout its strings,
those of the keys and those of the leaves. -/
theorem forall_mem_print_toMembers (p : CodePoint → Prop) (hp : ∀ c ∈ Json.layout, p c)
    (t : KeyTree Text) (level : Nat) :
    (∀ c ∈ Json.render level (.obj t.toMembers), p c) ↔
      (∀ k ∈ t.allKeys, ∀ c ∈ Json.quote k, p c) ∧ ∀ l ∈ t.leaves, ∀ c ∈ Json.quote l, p c := by
  rw [Json.forall_mem_render_obj p hp]
  induction t generalizing level with
  | nil => simp [toMembers, allKeys, leaves]
  | leaf key v rest ih =>
      rw [toMembers, List.forall_mem_cons, Json.forall_mem_renderMember p hp, Json.render, ih,
        allKeys, leaves, List.forall_mem_cons, List.forall_mem_cons]
      exact and_and_and_comm
  | node key below rest ihb ihr =>
      rw [toMembers, List.forall_mem_cons, Json.forall_mem_renderMember p hp,
        Json.forall_mem_render_obj p hp, ihb, ihr, allKeys, leaves, List.forall_mem_cons,
        List.forall_mem_append, List.forall_mem_append]
      constructor
      · rintro ⟨⟨hkey, hbelow, hlbelow⟩, hrest, hlrest⟩
        exact ⟨⟨hkey, hbelow, hrest⟩, hlbelow, hlrest⟩
      · rintro ⟨⟨hkey, hbelow, hrest⟩, hlbelow, hlrest⟩
        exact ⟨⟨hkey, hbelow, hlbelow⟩, hrest, hlrest⟩

/-- A printed tree can be written exactly if its keys and its leaves can. -/
theorem isScalar_print_toMembers (t : KeyTree Text) :
    (Json.print (.obj t.toMembers)).isScalar = true ↔
      t.HasScalarKeys ∧ ∀ l ∈ t.leaves, l.isScalar = true := by
  have hquote : ∀ s : Text, (∀ c ∈ Json.quote s, c.isScalar = true) ↔ s.isScalar = true := by
    intro s
    rw [← Text.isScalar_iff, Json.isScalar_quote]
  rw [Text.isScalar_iff, Json.print, forall_mem_print_toMembers _ (by decide)]
  simp only [hquote, HasScalarKeys]

theorem not_mem_print_toMembers (t : KeyTree Text) :
    CodePoint.scalar '\r' ∉ Json.print (.obj t.toMembers) := by
  have hquote : ∀ s : Text, ∀ c ∈ Json.quote s, c ≠ .scalar '\r' := by
    rintro s c hc rfl
    exact absurd (Json.le_value_of_mem_quote s _ hc) (by decide)
  have h := (forall_mem_print_toMembers (· ≠ .scalar '\r') (by decide) t 0).2
    ⟨fun k _ => hquote k, fun l _ => hquote l⟩
  exact fun hmem => h _ hmem rfl

end KeyTree

namespace Document

/-- A printed tree that is stored as a document is read as that tree. -/
theorem parse_print_toMembers (t : KeyTree Text) (hdistinct : t.HasDistinctKeys)
    (hkeys : t.HasScalarKeys) (hleaves : ∀ l ∈ t.leaves, l.isScalar = true) (path : Text)
    (bytes : Bytes) (hbytes : Utf8.encode (Json.print (.obj t.toMembers)) = .ok bytes) :
    parse path bytes = .ok (t.map .str) := by
  have hplain := KeyTree.isPlain_toMembers t hdistinct hkeys hleaves
  have hscalar := (KeyTree.isScalar_print_toMembers t).2 ⟨hkeys, hleaves⟩
  have hreturn : '\r' ∉ Text.toChars (Json.print (.obj t.toMembers)) := by
    intro hmem
    refine KeyTree.not_mem_print_toMembers t ?_
    rw [← Text.ofChars_toChars _ hscalar]
    exact List.mem_map_of_mem hmem
  rw [parse, Utf8.decode_of_encode _ bytes hbytes]
  simp only [Text.universalLines_of_not_mem _ hreturn, Json.read_print _ hplain,
    KeyTree.ofMembers_toMembers]

end Document

end LocaleKeys
