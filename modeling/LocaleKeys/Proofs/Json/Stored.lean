import LocaleKeys.Proofs.KeyTree.Printing

/-!
# Plain values in files

The printed text of a plain value can be written as bytes and has no carriage return
(`IsPlain.forall_mem_render`: what stands outside its strings is layout and the letters of a few
words). So a file that holds it, with a line end behind it, is read as this value.
-/

namespace LocaleKeys

namespace Json

/-- The code points that stand outside the strings of a plain value. -/
def outline : Text := "\n \x7b\x7d[]:,nultrefas"

section Outline

variable (p : CodePoint → Prop) (hp : ∀ c ∈ outline, p c)
include hp

theorem forall_mem_of_subset_outline (t : Text) (ht : ∀ c ∈ t, c ∈ outline) : ∀ c ∈ t, p c :=
  fun c hc => hp c (ht c hc)

theorem forall_mem_newLine (level : Nat) : ∀ c ∈ newLine level, p c := by
  have hlayout : ∀ c ∈ layout, c ∈ outline := by decide
  exact forall_mem_of_subset_outline p hp _ fun c hc =>
    hlayout c (mem_layout_of_mem_newLine level c hc)

theorem forall_mem_renderItems (level : Nat) (vs : List Json)
    (h : ∀ v ∈ vs, ∀ c ∈ render level v, p c) : ∀ c ∈ renderItems level vs, p c := by
  induction vs with
  | nil => exact fun c hc => nomatch hc
  | cons v vs ih =>
      obtain ⟨hv, hvs⟩ := List.forall_mem_cons.1 h
      cases vs with
      | nil => exact hv
      | cons w vs =>
          rw [renderItems, List.forall_mem_append, List.forall_mem_append, List.forall_mem_append]
          exact ⟨⟨⟨hv, forall_mem_of_subset_outline p hp "," (by decide)⟩,
            forall_mem_newLine p hp level⟩, ih hvs⟩

theorem IsPlain.forall_mem_render (hquote : ∀ t : Text, t.isScalar = true → ∀ c ∈ quote t, p c)
    (v : Json) (hv : v.IsPlain) (level : Nat) : ∀ c ∈ render level v, p c := by
  have hword : ∀ t : Text, (∀ c ∈ t, c ∈ outline) → ∀ c ∈ t, p c :=
    forall_mem_of_subset_outline p hp
  induction hv generalizing level with
  | null => exact hword "null" (by decide)
  | bool b =>
      cases b with
      | true => exact hword "true" (by decide)
      | false => exact hword "false" (by decide)
  | str t ht => exact hquote t ht
  | arr vs hvs ih =>
      cases vs with
      | nil => exact hword "[]" (by decide)
      | cons v vs =>
          rw [render, List.forall_mem_append, List.forall_mem_append, List.forall_mem_append,
            List.forall_mem_append]
          exact ⟨⟨⟨⟨hword "[" (by decide), forall_mem_newLine p hp _⟩,
            forall_mem_renderItems p hp _ _ fun w hw => ih w hw _⟩, forall_mem_newLine p hp _⟩,
              hword "]" (by decide)⟩
  | obj ms hnames hkeys hvalues ih =>
      have hlayout : ∀ c ∈ layout, p c := hword layout (by decide)
      rw [forall_mem_render_obj p hlayout]
      intro m hm
      rw [forall_mem_renderMember p hlayout]
      exact ⟨hquote m.1 (hkeys m hm), ih m hm _⟩

end Outline

theorem IsPlain.isScalar_print (v : Json) (hv : v.IsPlain) : (print v).isScalar = true := by
  rw [Text.isScalar_iff]
  refine hv.forall_mem_render (·.isScalar = true) (by decide) (fun t ht => ?_) v 0
  rw [← Text.isScalar_iff, isScalar_quote, ht]

theorem IsPlain.return_not_mem_print (v : Json) (hv : v.IsPlain) :
    CodePoint.scalar '\r' ∉ print v := by
  refine fun hmem => hv.forall_mem_render (· ≠ .scalar '\r') (by decide) (fun t _ => ?_) v 0 _ hmem
    rfl
  rintro c hc rfl
  exact absurd (le_value_of_mem_quote t _ hc) (by decide)

/-- A plain value that is printed on lines of its own can be stored and read again. -/
theorem IsPlain.exists_stored (v : Json) (hv : v.IsPlain) :
    ∃ bytes cs, Utf8.encode (print v ++ "\n") = .ok bytes ∧ Utf8.decode bytes = .ok cs ∧
      read (Text.universalLines cs) = .ok v := by
  have hscalar : (print v ++ Text.ofString "\n").isScalar = true := by
    rw [Text.isScalar_append, hv.isScalar_print v]
    rfl
  have hchars : (print v ++ Text.ofString "\n").toChars = (print v).toChars ++ ['\n'] :=
    Text.toChars_append _ _
  have hreturn : '\r' ∉ (print v).toChars ++ ['\n'] := by
    intro hmem
    rcases List.mem_append.1 hmem with hmem | hmem
    · refine hv.return_not_mem_print v ?_
      rw [← Text.ofChars_toChars _ (hv.isScalar_print v)]
      exact List.mem_map_of_mem hmem
    · exact absurd (List.mem_singleton.1 hmem) (by decide)
  have hencode := (Utf8.encode_eq_ok_iff (print v ++ Text.ofString "\n") _).2 ⟨hscalar, rfl⟩
  refine ⟨_, _, hencode, Utf8.decode_of_encode _ _ hencode, ?_⟩
  rw [hchars, Text.universalLines_of_not_mem _ hreturn]
  exact read_print_append v hv ['\n'] rfl

end Json

end LocaleKeys
