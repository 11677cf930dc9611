import LocaleKeys.Proofs.Artifact.Blocks

/-!
# Which artifacts can be written

The fixed words of an artifact are characters, so that an artifact can be written as bytes exactly
if the keys of its tree can (`isScalar_keysFile_iff`). Two artifacts that can be written have the
same bytes exactly if they have the same text, which says when the files of two trees are the same.
-/

namespace LocaleKeys

namespace Text

theorem isScalar_join_iff (sep : Text) (ts : List Text) (hsep : sep.isScalar = true) :
    (join sep ts).isScalar = true ↔ ∀ t ∈ ts, t.isScalar = true := by
  induction ts with
  | nil => exact iff_of_true rfl fun t ht => nomatch ht
  | cons t ts ih =>
      by_cases hne : ts = []
      · rw [hne, List.forall_mem_singleton]
        exact Iff.rfl
      · rw [join_cons_of_ne_nil sep t ts hne, isScalar_append, isScalar_append, hsep,
          List.forall_mem_cons, ← ih, Bool.and_true, Bool.and_eq_true]

end Text

namespace Rendering

theorem isScalar_header (description : Text) (lint : Bool) (h : description.isScalar = true) :
    ∀ line ∈ header description lint, line.isScalar = true := by
  have hlint : (Text.ofString "/* eslint-disable quotes */").isScalar = true :=
    Text.isScalar_ofString _
  have hplain : (Text.ofString "/* This file is auto-generated. */").isScalar = true :=
    Text.isScalar_ofString _
  cases lint with
  | false => exact List.forall_mem_singleton.2 hplain
  | true => exact List.forall_mem_cons.2 ⟨hlint, List.forall_mem_singleton.2 h⟩

theorem isScalar_typesDescription : typesDescription.isScalar = true := by
  rw [typesDescription, Text.isScalar_append, Text.isScalar_ofString, Text.isScalar_ofString]
  rfl

theorem isScalar_keysDescription : keysDescription.isScalar = true := Text.isScalar_ofString _

theorem isScalar_file_iff (lines blocks : List Text) (h : ∀ l ∈ lines, l.isScalar = true) :
    (file lines blocks).isScalar = true ↔ ∀ b ∈ blocks, b.isScalar = true := by
  have hend : (Text.ofString "\n").isScalar = true := Text.isScalar_ofString _
  have hlines := (Text.isScalar_join_iff (Text.ofString "\n") lines hend).2 h
  rw [file, Text.isScalar_append, Text.isScalar_append, Text.isScalar_append, hlines, hend,
    Bool.true_and, Bool.true_and, Bool.and_true]
  exact Text.isScalar_join_iff _ blocks (Text.isScalar_ofString _)

theorem isScalar_unionMember (path : Text) : (unionMember path).isScalar = path.isScalar := by
  rw [unionMember, Text.isScalar_append, Text.isScalar_ofString, Bool.true_and, Json.isScalar_quote]

theorem isScalar_union (paths : List Text) (h : ∀ p ∈ paths, p.isScalar = true) :
    (union paths).isScalar = true := by
  cases paths with
  | nil => exact Text.isScalar_ofString _
  | cons p ps =>
      have hmembers : ∀ m ∈ (p :: ps).map unionMember, m.isScalar = true := by
        intro m hm
        obtain ⟨q, hq, rfl⟩ := List.mem_map.1 hm
        rw [isScalar_unionMember]
        exact h q hq
      rw [union, Text.isScalar_append, Text.isScalar_append, Text.isScalar_ofString,
        Text.isScalar_ofString, Bool.true_and, Bool.and_true]
      · exact (Text.isScalar_join_iff _ _ (Text.isScalar_ofString _)).2 hmembers
      · exact List.cons_ne_nil p ps

variable {α β : Type}

theorem isScalar_constant_iff (t : KeyTree α) :
    (constant (constantMembers t)).isScalar = true ↔ t.HasScalarKeys := by
  rw [constant, Text.isScalar_append, Text.isScalar_append, Text.isScalar_ofString,
    Text.isScalar_ofString, Bool.true_and, Bool.and_true, constantMembers,
    KeyTree.isScalar_print_toMembers, hasScalarKeys_withPaths]
  exact ⟨fun h => h.1, fun h => ⟨h, isScalar_leaves_withPaths t h⟩⟩

/-- The file of the constant can be written exactly if the keys can. -/
theorem isScalar_keysFile_iff (mode : OutputMode) (lint : Bool) (t : KeyTree α) :
    (keysFile mode lint (t.paths []) (constantMembers t)).isScalar = true ↔ t.HasScalarKeys := by
  have hheader := isScalar_header keysDescription lint isScalar_keysDescription
  have hreexport : reexport.isScalar = true := Text.isScalar_ofString _
  rw [← isScalar_constant_iff]
  cases mode with
  | single =>
      rw [keysFile, isScalar_file_iff _ _ hheader, List.forall_mem_cons, List.forall_mem_singleton]
      refine ⟨fun h => h.2, fun h => ⟨?_, h⟩⟩
      exact isScalar_union _ (KeyTree.isScalar_paths t ((isScalar_constant_iff t).1 h))
  | dual =>
      rw [keysFile, isScalar_file_iff _ _ hheader, List.forall_mem_cons, List.forall_mem_singleton]
      exact ⟨fun h => h.2, fun h => ⟨hreexport, h⟩⟩

theorem isScalar_typesFile (lint : Bool) (paths : List Text) (h : ∀ p ∈ paths, p.isScalar = true) :
    (typesFile lint paths).isScalar = true := by
  have hheader := isScalar_header typesDescription lint isScalar_typesDescription
  rw [typesFile, isScalar_file_iff _ _ hheader, List.forall_mem_singleton]
  exact isScalar_union paths h

end Rendering

namespace Artifact

theorem exists_encode_eq_ok_iff (a : Artifact) :
    (∃ data, a.encode = .ok data) ↔ a.content.isScalar = true := by
  constructor
  · rintro ⟨data, h⟩
    exact ((Utf8.encode_eq_ok_iff _ _).1 h).1
  · intro h
    exact ⟨_, (Utf8.encode_eq_ok_iff _ _).2 ⟨h, rfl⟩⟩

theorem encode_eq_iff (a b : Artifact) (x y : Bytes) (ha : a.encode = .ok x)
    (hb : b.encode = .ok y) : x = y ↔ a.content = b.content := by
  constructor
  · rintro rfl
    exact Utf8.eq_of_encode_eq _ _ x ha hb
  · intro h
    rw [encode, h] at ha
    exact Except.ok.inj (ha.symm.trans hb)

end Artifact

end LocaleKeys
