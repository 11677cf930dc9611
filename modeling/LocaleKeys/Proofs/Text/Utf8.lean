import LocaleKeys.Proofs.Text.Scalar
import LocaleKeys.Text.Utf8

/-!
# Texts survive being written and read

A text can be written exactly if it is scalar, and the bytes of a list of characters are read as
that list (`decode_encodeChars`). One character is read at a time; its number decides how many bytes
it takes, and the first byte announces that count.
-/

namespace LocaleKeys

namespace Utf8

theorem announced_of_one (b : UInt8) (h : b.toNat < 0x80) : announced b = 1 :=
  if_pos h

theorem announced_of_two (b : UInt8) (hl : 0xC2 ≤ b.toNat) (hu : b.toNat < 0xE0) :
    announced b = 2 := by
  have h₁ : ¬ b < 0x80 := Nat.not_lt.2 (show 0x80 ≤ b.toNat by omega)
  have h₂ : ¬ b < 0xC2 := Nat.not_lt.2 hl
  have h₃ : b < 0xE0 := hu
  rw [announced, if_neg h₁, if_neg h₂, if_pos h₃]

theorem announced_of_three (b : UInt8) (hl : 0xE0 ≤ b.toNat) (hu : b.toNat < 0xF0) :
    announced b = 3 := by
  have h₁ : ¬ b < 0x80 := Nat.not_lt.2 (show 0x80 ≤ b.toNat by omega)
  have h₂ : ¬ b < 0xC2 := Nat.not_lt.2 (show 0xC2 ≤ b.toNat by omega)
  have h₃ : ¬ b < 0xE0 := Nat.not_lt.2 hl
  have h₄ : b < 0xF0 := hu
  rw [announced, if_neg h₁, if_neg h₂, if_neg h₃, if_pos h₄]

theorem announced_of_four (b : UInt8) (hl : 0xF0 ≤ b.toNat) (hu : b.toNat < 0xF5) :
    announced b = 4 := by
  have h₁ : ¬ b < 0x80 := Nat.not_lt.2 (show 0x80 ≤ b.toNat by omega)
  have h₂ : ¬ b < 0xC2 := Nat.not_lt.2 (show 0xC2 ≤ b.toNat by omega)
  have h₃ : ¬ b < 0xE0 := Nat.not_lt.2 (show 0xE0 ≤ b.toNat by omega)
  have h₄ : ¬ b < 0xF0 := Nat.not_lt.2 hl
  have h₅ : b < 0xF5 := hu
  rw [announced, if_neg h₁, if_neg h₂, if_neg h₃, if_neg h₄, if_pos h₅]

theorem toNat_trailing (n : Nat) : (UInt8.ofNat (n % 0x40 + 0x80)).toNat = n % 0x40 + 0x80 := by
  rw [UInt8.toNat_ofNat']
  omega

theorem payload_trailing (n : Nat) : payload (UInt8.ofNat (n % 0x40 + 0x80)) = n % 0x40 := by
  rw [payload, toNat_trailing]
  omega

theorem isContinuation_trailing (n : Nat) :
    isContinuation (UInt8.ofNat (n % 0x40 + 0x80)) = true := by
  have hval := toNat_trailing n
  have hl : (0x80 : UInt8) ≤ UInt8.ofNat (n % 0x40 + 0x80) :=
    show 0x80 ≤ (UInt8.ofNat (n % 0x40 + 0x80)).toNat by omega
  have hu : UInt8.ofNat (n % 0x40 + 0x80) ≤ 0xBF :=
    show (UInt8.ofNat (n % 0x40 + 0x80)).toNat ≤ 0xBF by omega
  rw [isContinuation, decide_eq_true hl, decide_eq_true hu]
  rfl

/-- A continuation byte may follow a lead byte if it makes the character neither overlong, nor a
surrogate, nor too large. -/
theorem maySecond_trailing (b : UInt8) (n : Nat) (hE0 : b.toNat = 0xE0 → 0x20 ≤ n % 0x40)
    (hED : b.toNat = 0xED → n % 0x40 < 0x20) (hF0 : b.toNat = 0xF0 → 0x10 ≤ n % 0x40)
    (hF4 : b.toNat = 0xF4 → n % 0x40 < 0x10) :
    maySecond b (UInt8.ofNat (n % 0x40 + 0x80)) = true := by
  rw [maySecond, isContinuation_trailing, Bool.true_and]
  have hval := toNat_trailing n
  split
  case isTrue h =>
    have hb := hE0 (congrArg UInt8.toNat h)
    exact decide_eq_true (show 0xA0 ≤ (UInt8.ofNat (n % 0x40 + 0x80)).toNat by omega)
  case isFalse =>
    split
    case isTrue h =>
      have hb := hED (congrArg UInt8.toNat h)
      exact decide_eq_true (show (UInt8.ofNat (n % 0x40 + 0x80)).toNat < 0xA0 by omega)
    case isFalse =>
      split
      case isTrue h =>
        have hb := hF0 (congrArg UInt8.toNat h)
        exact decide_eq_true (show 0x90 ≤ (UInt8.ofNat (n % 0x40 + 0x80)).toNat by omega)
      case isFalse =>
        split
        case isTrue h =>
          have hb := hF4 (congrArg UInt8.toNat h)
          exact decide_eq_true (show (UInt8.ofNat (n % 0x40 + 0x80)).toNat < 0x90 by omega)
        case isFalse => rfl

theorem decodeAt_two (pos : Nat) (b₀ b₁ : UInt8) (rest : Bytes) (h₀ : announced b₀ = 2)
    (h₁ : maySecond b₀ b₁ = true) :
    decodeAt pos (b₀ :: b₁ :: rest) = (decodeAt (pos + 2) rest).map (char₂ b₀ b₁ :: ·) := by
  rw [decodeAt.eq_5 pos b₀ b₁ rest h₀, if_pos h₁]

theorem decodeAt_three (pos : Nat) (b₀ b₁ b₂ : UInt8) (rest : Bytes) (h₀ : announced b₀ = 3)
    (h₁ : maySecond b₀ b₁ = true) (h₂ : isContinuation b₂ = true) :
    decodeAt pos (b₀ :: b₁ :: b₂ :: rest) =
      (decodeAt (pos + 3) rest).map (char₃ b₀ b₁ b₂ :: ·) := by
  rw [decodeAt.eq_7 pos b₀ b₁ b₂ rest h₀, h₁, if_neg (by decide), if_pos h₂]

theorem decodeAt_four (pos : Nat) (b₀ b₁ b₂ b₃ : UInt8) (rest : Bytes) (h₀ : announced b₀ = 4)
    (h₁ : maySecond b₀ b₁ = true) (h₂ : isContinuation b₂ = true)
    (h₃ : isContinuation b₃ = true) :
    decodeAt pos (b₀ :: b₁ :: b₂ :: b₃ :: rest) =
      (decodeAt (pos + 4) rest).map (char₄ b₀ b₁ b₂ b₃ :: ·) := by
  rw [decodeAt.eq_9 pos b₀ b₁ b₂ b₃ rest (by omega) (by omega) (by omega) (by omega), h₁, h₂,
    if_neg (by decide), if_neg (by decide), if_pos h₃]

theorem decodeAt_utf8EncodeChar (c : Char) (pos : Nat) (rest : Bytes) :
    ∃ pos', decodeAt pos (String.utf8EncodeChar c ++ rest) =
      (decodeAt pos' rest).map (c :: ·) := by
  have hvalid : c.toNat < 0xD800 ∨ (0xDFFF < c.toNat ∧ c.toNat < 0x110000) := c.valid
  have hchar : ∀ n, n = c.toNat → Char.ofNat n = c := by
    rintro _ rfl
    exact Char.ofNat_toNat c
  -- One case for each number of bytes; the first byte announces it in every case.
  unfold String.utf8EncodeChar
  simp only [← Char.toNat.eq_1]
  split
  case isTrue h₁ =>
    have hb : (UInt8.ofNat c.toNat).toNat = c.toNat := by
      rw [UInt8.toNat_ofNat']
      omega
    refine ⟨pos + 1, ?_⟩
    rw [List.singleton_append, decodeAt.eq_3 pos _ rest (announced_of_one _ (by omega)), hb,
      hchar _ rfl]
  case isFalse h₁ =>
    split
    case isTrue h₂ =>
      have hb : (UInt8.ofNat (c.toNat / 64 % 0x20 + 0xC0)).toNat = c.toNat / 64 + 0xC0 := by
        rw [UInt8.toNat_ofNat']
        omega
      refine ⟨pos + 2, ?_⟩
      rw [List.cons_append, List.singleton_append,
        decodeAt_two pos _ _ rest (announced_of_two _ (by omega) (by omega))
          (maySecond_trailing _ _ (by omega) (by omega) (by omega) (by omega)),
        char₂, hb, payload_trailing, hchar _ (by omega)]
    case isFalse h₂ =>
      split
      case isTrue h₃ =>
        have hb : (UInt8.ofNat (c.toNat / 4096 % 0x10 + 0xE0)).toNat =
            c.toNat / 4096 + 0xE0 := by
          rw [UInt8.toNat_ofNat']
          omega
        refine ⟨pos + 3, ?_⟩
        rw [List.cons_append, List.cons_append, List.singleton_append,
          decodeAt_three pos _ _ _ rest (announced_of_three _ (by omega) (by omega))
            (maySecond_trailing _ _ (by omega) (by omega) (by omega) (by omega))
            (isContinuation_trailing _),
          char₃, hb, payload_trailing, payload_trailing, hchar _ (by omega)]
      case isFalse h₃ =>
        have hb : (UInt8.ofNat (c.toNat / 262144 % 0x08 + 0xF0)).toNat =
            c.toNat / 262144 + 0xF0 := by
          rw [UInt8.toNat_ofNat']
          omega
        refine ⟨pos + 4, ?_⟩
        rw [List.cons_append, List.cons_append, List.cons_append, List.singleton_append,
          decodeAt_four pos _ _ _ _ rest (announced_of_four _ (by omega) (by omega))
            (maySecond_trailing _ _ (by omega) (by omega) (by omega) (by omega))
            (isContinuation_trailing _) (isContinuation_trailing _),
          char₄, hb, payload_trailing, payload_trailing, payload_trailing, hchar _ (by omega)]

theorem decodeAt_encodeChars (cs : List Char) (pos : Nat) :
    decodeAt pos (encodeChars cs) = .ok cs := by
  induction cs generalizing pos with
  | nil => rfl
  | cons c cs ih =>
      obtain ⟨pos', hpos⟩ := decodeAt_utf8EncodeChar c pos (encodeChars cs)
      rw [encodeChars, List.flatMap_cons, ← encodeChars, hpos, ih pos']
      rfl

/-- The bytes of a list of characters are read as that list. -/
theorem decode_encodeChars (cs : List Char) : decode (encodeChars cs) = .ok cs :=
  decodeAt_encodeChars cs 0

theorem encodeAt_ofChars (cs : List Char) (pos : Nat) :
    encodeAt pos (Text.ofChars cs) = .ok (encodeChars cs) := by
  induction cs generalizing pos with
  | nil => rfl
  | cons c cs ih =>
      rw [Text.ofChars, List.map_cons, ← Text.ofChars, encodeAt, ih (pos + 1)]
      rfl

theorem isScalar_of_encodeAt (t : Text) (pos : Nat) (bs : Bytes) (h : encodeAt pos t = .ok bs) :
    t.isScalar = true := by
  induction t generalizing pos bs with
  | nil => rfl
  | cons c t ih =>
      cases c with
      | surrogate u => exact nomatch h
      | scalar c =>
          rw [encodeAt] at h
          cases ht : encodeAt (pos + 1) t with
          | error f =>
              rw [ht] at h
              exact nomatch h
          | ok bs' => exact ih (pos + 1) bs' ht

theorem encode_eq_ok_iff (t : Text) (bs : Bytes) :
    encode t = .ok bs ↔ t.isScalar = true ∧ bs = encodeChars t.toChars := by
  constructor
  · intro h
    have ht := isScalar_of_encodeAt t 0 bs h
    refine ⟨ht, ?_⟩
    rw [← Text.ofChars_toChars t ht, encode, encodeAt_ofChars] at h
    exact (Except.ok.inj h).symm
  · rintro ⟨ht, rfl⟩
    have h := encodeAt_ofChars t.toChars 0
    rw [Text.ofChars_toChars t ht] at h
    exact h

theorem decode_of_encode (t : Text) (bs : Bytes) (h : encode t = .ok bs) :
    decode bs = .ok t.toChars := by
  rw [((encode_eq_ok_iff t bs).1 h).2]
  exact decode_encodeChars t.toChars

theorem eq_of_encode_eq (s t : Text) (bs : Bytes) (hs : encode s = .ok bs)
    (ht : encode t = .ok bs) : s = t := by
  have hchars := decode_of_encode s bs hs
  rw [decode_of_encode t bs ht] at hchars
  rw [← Text.ofChars_toChars s ((encode_eq_ok_iff s bs).1 hs).1, ← Except.ok.inj hchars,
    Text.ofChars_toChars t ((encode_eq_ok_iff t bs).1 ht).1]

end Utf8

namespace Text

theorem universalLines_of_not_mem (cs : List Char) (h : '\r' ∉ cs) : universalLines cs = cs := by
  induction cs with
  | nil => rfl
  | cons c cs ih =>
      obtain ⟨hc, hcs⟩ := List.ne_and_not_mem_of_not_mem_cons h
      rw [universalLines.eq_4 c cs (fun _ hr _ => hc hr.symm) (fun hr => hc hr.symm), ih hcs]

end Text

end LocaleKeys
