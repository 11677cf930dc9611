import LocaleKeys.Json.Printer
import LocaleKeys.Json.Reader
import LocaleKeys.Proofs.Text.Scalar

/-!
# String literals read back

A code point is written in a literal in one of three ways: as a backslash with a letter, as a
backslash with four digits of base sixteen, or as itself (`escape_scalar_cases`). The reader knows
each of them, so that it gives back every scalar text from its literal (`string_flatMap_escape`). No
literal holds a control character; in particular a literal stays on one line.
-/

namespace LocaleKeys

namespace Json

theorem hex_of_lt (n : Nat) (h : n < 0x20) :
    ∃ a b : Char, Text.hex 4 n = Text.ofChars ['0', '0', a, b] ∧ unit? '0' '0' a b = some n ∧
      0x20 ≤ a.toNat ∧ 0x20 ≤ b.toNat := by
  have hall : ∀ n : Fin 0x20, Digits.padded 16 4 n = ['0', '0', Nat.digitChar (n / 16),
      Nat.digitChar (n % 16)] ∧
      unit? '0' '0' (Nat.digitChar (n / 16)) (Nat.digitChar (n % 16)) = some n.val ∧
      0x20 ≤ (Nat.digitChar (n / 16)).toNat ∧ 0x20 ≤ (Nat.digitChar (n % 16)).toNat := by
    decide
  obtain ⟨hpad, hunit, ha, hb⟩ := hall ⟨n, h⟩
  exact ⟨_, _, congrArg Text.ofChars hpad, hunit, ha, hb⟩

/-- The three ways in which a character is written in a literal. -/
theorem escape_scalar_cases (c : Char) :
    (∃ s, shortEscape? s = some c ∧ 0x20 ≤ s.toNat ∧
      escape (.scalar c) = Text.ofChars ['\\', s]) ∨
    (c.toNat < 0x20 ∧ escape (.scalar c) = Text.ofChars ['\\', 'u'] ++ Text.hex 4 c.toNat) ∨
    (c ≠ '"' ∧ c ≠ '\\' ∧ 0x20 ≤ c.toNat ∧ escape (.scalar c) = [.scalar c]) := by
  unfold escape
  split
  case h_1 h => exact .inl ⟨'"', by rw [CodePoint.scalar.inj h]; decide, by decide, rfl⟩
  case h_2 h => exact .inl ⟨'\\', by rw [CodePoint.scalar.inj h]; decide, by decide, rfl⟩
  case h_3 h => exact .inl ⟨'n', by rw [CodePoint.scalar.inj h]; decide, by decide, rfl⟩
  case h_4 h => exact .inl ⟨'r', by rw [CodePoint.scalar.inj h]; decide, by decide, rfl⟩
  case h_5 h => exact .inl ⟨'t', by rw [CodePoint.scalar.inj h]; decide, by decide, rfl⟩
  case h_6 h => exact .inl ⟨'b', by rw [CodePoint.scalar.inj h]; decide, by decide, rfl⟩
  case h_7 h => exact .inl ⟨'f', by rw [CodePoint.scalar.inj h]; decide, by decide, rfl⟩
  case h_8 hquote hslash _ _ _ _ _ =>
    by_cases hc : c.toNat < 0x20
    · exact .inr (.inl ⟨hc, if_pos hc⟩)
    · refine .inr (.inr ⟨?_, ?_, Nat.not_lt.1 hc, if_neg hc⟩)
      · rintro rfl
        exact hquote rfl
      · rintro rfl
        exact hslash rfl

/-- What the reader makes of one more character in front of a string. -/
def consRead (c : Char) (x : Except Stop (Text × List Char)) : Except Stop (Text × List Char) :=
  x.map fun (t, r) => (.scalar c :: t, r)

theorem string_short (start r : List Char) (s c : Char) (h : shortEscape? s = some c) :
    string start ('\\' :: s :: r) = consRead c (string start r) := by
  have hs : s ≠ 'u' := by
    rintro rfl
    exact nomatch h
  rw [string.eq_6 start s r (fun _ _ _ _ _ _ hu => absurd hu hs) hs, h]
  rfl

theorem consUnit_toNat (c : Char) (t : Text) : consUnit c.toNat t = .scalar c :: t := by
  simp [consUnit, CodePoint.ofNat?_toNat]

theorem string_unit (start r : List Char) (a b d e c : Char) (h : unit? a b d e = some c.toNat)
    (hr : r ≠ []) :
    string start ('\\' :: 'u' :: a :: b :: d :: e :: r) = consRead c (string start r) := by
  obtain ⟨f, r, rfl⟩ := List.exists_cons_of_ne_nil hr
  rw [string, h]
  simp only [consUnit_toNat]
  rfl

theorem string_plain (start r : List Char) (c : Char) (hquote : c ≠ '"') (hslash : c ≠ '\\')
    (hc : 0x20 ≤ c.toNat) : string start (c :: r) = consRead c (string start r) := by
  have hspace : ¬ c < ' ' := by
    intro hlt
    have : c.toNat < 0x20 := hlt
    omega
  rw [string.eq_7 start c r hquote (fun _ _ _ _ _ _ h => absurd h hslash)
    (fun _ h => absurd h hslash) hslash.elim (fun _ _ h => absurd h hslash), if_neg hspace]
  rfl

theorem string_escape (start r : List Char) (c : Char) (hr : r ≠ []) :
    string start ((escape (.scalar c)).toChars ++ r) = consRead c (string start r) := by
  rcases escape_scalar_cases c with ⟨s, hs, _, he⟩ | ⟨hc, he⟩ | ⟨hquote, hslash, hc, he⟩
  · rw [he]
    exact string_short start r s c hs
  · obtain ⟨a, b, hhex, hunit, _⟩ := hex_of_lt c.toNat hc
    rw [he, hhex]
    exact string_unit start r '0' '0' a b c hunit hr
  · rw [he]
    exact string_plain start r c hquote hslash hc

/-- The reader gives back a scalar text from its literal, and what follows the literal. -/
theorem string_flatMap_escape (start r : List Char) (t : Text) (ht : t.isScalar = true) :
    string start (Text.toChars (t.flatMap escape) ++ '"' :: r) = .ok (t, r) := by
  induction t with
  | nil => rw [List.flatMap_nil, Text.toChars_nil, List.nil_append, string]
  | cons c t ih =>
      rw [Text.isScalar, List.all_cons, Bool.and_eq_true] at ht
      cases c with
      | surrogate u => exact absurd ht.1 (by simp [CodePoint.isScalar])
      | scalar c =>
          rw [List.flatMap_cons, Text.toChars_append, List.append_assoc,
            string_escape start _ c (by simp), ih ht.2]
          rfl

theorem toChars_quote (t : Text) :
    (quote t).toChars = '"' :: (Text.toChars (t.flatMap escape) ++ ['"']) := by
  simp [quote]

theorem escape_surrogate (u : Fin 2048) : escape (.surrogate u) = [.surrogate u] := by
  have hu : ¬ 0xD800 + u.val < 0x20 := by omega
  simp [escape, CodePoint.value, hu]

theorem isScalar_escape (c : CodePoint) : (escape c).isScalar = c.isScalar := by
  cases c with
  | surrogate u =>
      rw [escape_surrogate]
      rfl
  | scalar c =>
      rcases escape_scalar_cases c with ⟨s, _, _, he⟩ | ⟨_, he⟩ | ⟨_, _, _, he⟩
      · rw [he]
        rfl
      · rw [he, Text.isScalar_append]
        exact Text.isScalar_ofChars (Digits.padded 16 4 c.toNat)
      · rw [he]
        rfl

theorem isScalar_quote (t : Text) : (quote t).isScalar = t.isScalar := by
  have hbody : Text.isScalar (t.flatMap escape) = t.isScalar := by
    induction t with
    | nil => rfl
    | cons c t ih =>
        rw [List.flatMap_cons, Text.isScalar_append, isScalar_escape, ih]
        rfl
  simp only [quote, Text.isScalar, List.all_cons, List.all_append, List.all_nil, Bool.and_true,
    CodePoint.isScalar, Bool.true_and]
  exact hbody

theorem le_value_of_mem_escape (c d : CodePoint) (h : d ∈ escape c) : 0x20 ≤ d.value := by
  cases c with
  | surrogate u =>
      rw [escape_surrogate] at h
      rw [List.mem_singleton.1 h, CodePoint.value]
      omega
  | scalar c =>
      rcases escape_scalar_cases c with ⟨s, _, hs, he⟩ | ⟨hc, he⟩ | ⟨_, _, hc, he⟩
      · rw [he] at h
        simp only [Text.ofChars, List.map_cons, List.map_nil, List.mem_cons, List.not_mem_nil,
          or_false] at h
        rcases h with rfl | rfl
        · decide
        · exact hs
      · obtain ⟨a, b, hhex, _, ha, hb⟩ := hex_of_lt c.toNat hc
        rw [he, hhex, ← Text.ofChars_append] at h
        simp only [Text.ofChars, List.cons_append, List.nil_append, List.map_cons, List.map_nil,
          List.mem_cons, List.not_mem_nil, or_false] at h
        rcases h with rfl | rfl | rfl | rfl | rfl | rfl
        · decide
        · decide
        · decide
        · decide
        · exact ha
        · exact hb
      · rw [he] at h
        rw [List.mem_singleton.1 h]
        exact hc

theorem le_value_of_mem_quote (t : Text) (d : CodePoint) (h : d ∈ quote t) : 0x20 ≤ d.value := by
  have hquote : 0x20 ≤ (CodePoint.scalar '"').value := by decide
  rcases List.mem_cons.1 h with rfl | h
  · exact hquote
  · rcases List.mem_append.1 h with h | h
    · obtain ⟨c, _, hc⟩ := List.mem_flatMap.1 h
      exact le_value_of_mem_escape c d hc
    · rw [List.mem_singleton.1 h]
      exact hquote

end Json

end LocaleKeys
