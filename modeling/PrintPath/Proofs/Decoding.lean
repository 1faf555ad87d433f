import Mathlib.Algebra.Group.Nat.Defs
import PrintPath.Text.Raw

/-!
# Decoding undoes encoding, and keeps lines apart

Two facts about `Utf8.decode` are shown here.

* Bytes that encode a text decode to that text (`decode_toUTF8`), so a raw text that is
  a text is shown as it is.  A character is encoded in one to four bytes.  The first of
  them begins a sequence whose range for the second byte refuses overlong forms,
  surrogates and values past the last code point; since a `Char` is none of these, its
  own second byte lies in the range.
* Bytes without a line feed decode to a text without one (`newline_notMem_decode`),
  whatever the bytes are.  A sequence of several bytes is never a short form of an
  ASCII character.  That is an invariant of the sequence while it grows: the smallest
  value it can still reach is not ASCII (`Pending.IsLong`).
-/

namespace PrintPath
namespace Utf8

/-! ## One step -/

/-- The last byte of a sequence completes a character. -/
theorem decodeFrom_last {p : Pending} {byte : UInt8} (hlow : p.low ≤ byte.toNat)
    (hhigh : byte.toNat ≤ p.high) (hlast : p.further = 0) (rest : List UInt8) :
    decodeFrom (some p) (byte :: rest) =
      Char.ofNat (p.value * 64 + (byte.toNat - 0x80)) :: decode rest := by
  rw [decodeFrom, step, if_pos ⟨hlow, hhigh⟩, hlast]
  rfl

/-- An earlier byte of a sequence adds its bits. -/
theorem decodeFrom_further {p : Pending} {byte : UInt8} {further : Nat}
    (hlow : p.low ≤ byte.toNat) (hhigh : byte.toNat ≤ p.high) (hmore : p.further = further + 1)
    (rest : List UInt8) :
    decodeFrom (some p) (byte :: rest) =
      decodeFrom (some (.mk further 0x80 0xBF (p.value * 64 + (byte.toNat - 0x80)))) rest := by
  rw [decodeFrom, step, if_pos ⟨hlow, hhigh⟩, hmore]
  rfl

/-- The sequence that the first byte of a character begins. -/
theorem decodeFrom_begin {byte : UInt8} {p : Pending} (h : start byte = ([], some p))
    (rest : List UInt8) : decode (byte :: rest) = decodeFrom (some p) rest := by
  rw [decode, decodeFrom, step, h]
  rfl

/-! ## Encoding and decoding again -/

/-- The byte of a number that is small enough to be one. -/
theorem toNat_byte {n : Nat} (h : n < 256) : (UInt8.ofNat n).toNat = n := by
  rw [UInt8.toNat_ofNat']
  exact Nat.mod_eq_of_lt h

/-- What the first byte of a two-byte character begins. -/
theorem start_two (byte : UInt8) (hlow : 0xC2 ≤ byte.toNat) (hhigh : byte.toNat < 0xE0) :
    start byte = ([], some (.mk 0 0x80 0xBF (byte.toNat - 0xC0))) := by
  unfold start
  rw [if_neg (by omega), if_neg (by omega), if_pos hhigh]

/-- What the first byte of a three-byte character begins.  The second byte decides
whether the sequence is an overlong form or a surrogate. -/
theorem start_three (byte : UInt8) (hlow : 0xE0 ≤ byte.toNat) (hhigh : byte.toNat < 0xF0) :
    ∃ p, start byte = ([], some p) ∧ p.further = 1 ∧ p.value = byte.toNat - 0xE0 ∧
      p.low = (if byte.toNat = 0xE0 then 0xA0 else 0x80) ∧
      p.high = (if byte.toNat = 0xED then 0x9F else 0xBF) := by
  unfold start
  simp only
  rw [if_neg (by omega), if_neg (by omega), if_neg (by omega)]
  by_cases hfirst : byte.toNat = 0xE0
  · rw [hfirst]
    exact ⟨_, rfl, rfl, rfl, rfl, rfl⟩
  · rw [if_neg hfirst, if_neg hfirst]
    by_cases hsurrogate : byte.toNat = 0xED
    · rw [hsurrogate]
      exact ⟨_, rfl, rfl, rfl, rfl, rfl⟩
    · rw [if_neg hsurrogate, if_neg hsurrogate, if_pos hhigh]
      exact ⟨_, rfl, rfl, rfl, rfl, rfl⟩

/-- What the first byte of a four-byte character begins.  The second byte decides
whether the sequence is an overlong form or too large. -/
theorem start_four (byte : UInt8) (hlow : 0xF0 ≤ byte.toNat) (hhigh : byte.toNat ≤ 0xF4) :
    ∃ p, start byte = ([], some p) ∧ p.further = 2 ∧ p.value = byte.toNat - 0xF0 ∧
      p.low = (if byte.toNat = 0xF0 then 0x90 else 0x80) ∧
      p.high = (if byte.toNat = 0xF4 then 0x8F else 0xBF) := by
  unfold start
  simp only
  rw [if_neg (by omega), if_neg (by omega), if_neg (by omega), if_neg (by omega),
    if_neg (by omega), if_neg (by omega)]
  by_cases hfirst : byte.toNat = 0xF0
  · rw [hfirst]
    exact ⟨_, rfl, rfl, rfl, rfl, rfl⟩
  · rw [if_neg hfirst, if_neg hfirst]
    by_cases hlast : byte.toNat = 0xF4
    · rw [hlast]
      exact ⟨_, rfl, rfl, rfl, rfl, rfl⟩
    · rw [if_pos (show byte.toNat < 0xF4 by omega), if_neg hlast]
      exact ⟨_, rfl, rfl, rfl, rfl, rfl⟩

theorem decode_two {a b : Nat} (ha : 2 ≤ a ∧ a < 32) (hb : b < 64) (rest : List UInt8) :
    decode (UInt8.ofNat (a + 0xC0) :: UInt8.ofNat (b + 0x80) :: rest) =
      Char.ofNat (a * 64 + b) :: decode rest := by
  have hfirst : (UInt8.ofNat (a + 0xC0)).toNat = a + 0xC0 := toNat_byte (by omega)
  have hsecond : (UInt8.ofNat (b + 0x80)).toNat = b + 0x80 := toNat_byte (by omega)
  have hstart := start_two (UInt8.ofNat (a + 0xC0)) (by omega) (by omega)
  rw [decodeFrom_begin hstart, decodeFrom_last _ _ rfl]
  · simp only [hfirst, hsecond, Nat.add_sub_cancel]
  · show 0x80 ≤ _
    omega
  · show _ ≤ 0xBF
    omega

theorem decode_three {a b c : Nat} (ha : a < 16) (hb : b < 64) (hc : c < 64)
    (hlong : 0x800 ≤ (a * 64 + b) * 64 + c) (hsurrogate : a = 13 → b < 32)
    (rest : List UInt8) :
    decode (UInt8.ofNat (a + 0xE0) :: UInt8.ofNat (b + 0x80) :: UInt8.ofNat (c + 0x80) :: rest) =
      Char.ofNat ((a * 64 + b) * 64 + c) :: decode rest := by
  have hfirst : (UInt8.ofNat (a + 0xE0)).toNat = a + 0xE0 := toNat_byte (by omega)
  have hsecond : (UInt8.ofNat (b + 0x80)).toNat = b + 0x80 := toNat_byte (by omega)
  have hthird : (UInt8.ofNat (c + 0x80)).toNat = c + 0x80 := toNat_byte (by omega)
  obtain ⟨p, hstart, hfurther, hvalue, hlow, hhigh⟩ :=
    start_three (UInt8.ofNat (a + 0xE0)) (by omega) (by omega)
  rw [hfirst] at hvalue hlow hhigh
  rw [decodeFrom_begin hstart, decodeFrom_further _ _ hfurther, decodeFrom_last _ _ rfl]
  · simp only [hvalue, hsecond, hthird, Nat.add_sub_cancel]
  · show 0x80 ≤ _
    omega
  · show _ ≤ 0xBF
    omega
  · rw [hlow, hsecond]
    split <;> omega
  · rw [hhigh, hsecond]
    split <;> omega

theorem decode_four {a b c d : Nat} (ha : a ≤ 4) (hb : b < 64) (hc : c < 64) (hd : d < 64)
    (hlong : 0x10000 ≤ ((a * 64 + b) * 64 + c) * 64 + d)
    (hlast : ((a * 64 + b) * 64 + c) * 64 + d < 0x110000) (rest : List UInt8) :
    decode (UInt8.ofNat (a + 0xF0) :: UInt8.ofNat (b + 0x80) :: UInt8.ofNat (c + 0x80) ::
        UInt8.ofNat (d + 0x80) :: rest) =
      Char.ofNat (((a * 64 + b) * 64 + c) * 64 + d) :: decode rest := by
  have hfirst : (UInt8.ofNat (a + 0xF0)).toNat = a + 0xF0 := toNat_byte (by omega)
  have hsecond : (UInt8.ofNat (b + 0x80)).toNat = b + 0x80 := toNat_byte (by omega)
  have hthird : (UInt8.ofNat (c + 0x80)).toNat = c + 0x80 := toNat_byte (by omega)
  have hfourth : (UInt8.ofNat (d + 0x80)).toNat = d + 0x80 := toNat_byte (by omega)
  obtain ⟨p, hstart, hfurther, hvalue, hlow, hhigh⟩ :=
    start_four (UInt8.ofNat (a + 0xF0)) (by omega) (by omega)
  rw [hfirst] at hvalue hlow hhigh
  rw [decodeFrom_begin hstart, decodeFrom_further _ _ hfurther, decodeFrom_further _ _ rfl,
    decodeFrom_last _ _ rfl]
  · simp only [hvalue, hsecond, hthird, hfourth, Nat.add_sub_cancel]
  · show 0x80 ≤ _
    omega
  · show _ ≤ 0xBF
    omega
  · show 0x80 ≤ _
    omega
  · show _ ≤ 0xBF
    omega
  · rw [hlow, hsecond]
    split <;> omega
  · rw [hhigh, hsecond]
    split <;> omega

/-- **The bytes of a character decode to it.**  The cases are those of the encoding, by
the number of bytes. -/
theorem decode_utf8EncodeChar (c : Char) (rest : List UInt8) :
    decode (String.utf8EncodeChar c ++ rest) = c :: decode rest := by
  obtain ⟨v, hv⟩ : ∃ v, v = c.val.toNat := ⟨_, rfl⟩
  have hvalid : v < 0xD800 ∨ 0xDFFF < v ∧ v < 0x110000 := hv ▸ c.valid
  have hchar : c = Char.ofNat v := hv ▸ (Char.ofNat_toNat c).symm
  have hgoal : c :: decode rest = Char.ofNat v :: decode rest := by rw [← hchar]
  rw [hgoal]
  unfold String.utf8EncodeChar
  rw [← hv]
  simp only
  split
  · next hone =>
    have hbyte : (UInt8.ofNat v).toNat = v := toNat_byte (by omega)
    rw [List.singleton_append, decode, decodeFrom, step, start, hbyte, if_pos (by omega)]
    rfl
  split
  · next hnotOne htwo =>
    have ha : v / 64 % 0x20 = v / 64 := Nat.mod_eq_of_lt (by omega)
    have hsum : v / 64 * 64 + v % 64 = v := by omega
    rw [List.cons_append, List.singleton_append, ha,
      decode_two (by omega) (Nat.mod_lt _ (by decide)), hsum]
  split
  · next hnotOne hnotTwo hthree =>
    have ha : v / 4096 % 0x10 = v / 4096 := Nat.mod_eq_of_lt (by omega)
    have hsum : (v / 4096 * 64 + v / 64 % 64) * 64 + v % 64 = v := by omega
    rw [List.cons_append, List.cons_append, List.singleton_append, ha,
      decode_three (by omega) (Nat.mod_lt _ (by decide)) (Nat.mod_lt _ (by decide)) (by omega)
        (by omega), hsum]
  · next hnotOne hnotTwo hnotThree =>
    have ha : v / 262144 % 0x08 = v / 262144 := Nat.mod_eq_of_lt (by omega)
    have hsum : ((v / 262144 * 64 + v / 4096 % 64) * 64 + v / 64 % 64) * 64 + v % 64 = v := by
      omega
    rw [List.cons_append, List.cons_append, List.cons_append, List.singleton_append, ha,
      decode_four (by omega) (Nat.mod_lt _ (by decide)) (Nat.mod_lt _ (by decide))
        (Nat.mod_lt _ (by decide)) (by omega) (by omega), hsum]

/-- The bytes of a text. -/
theorem toList_toUTF8 (text : String) :
    text.toUTF8.data.toList = text.toList.flatMap String.utf8EncodeChar := by
  rw [String.toUTF8_eq_toByteArray, ← String.utf8Encode_toList, List.utf8Encode,
    List.data_toByteArray]

/-- **Decoding undoes encoding**, in front of any other bytes. -/
theorem decode_flatMap_utf8EncodeChar (text : List Char) (rest : List UInt8) :
    decode (text.flatMap String.utf8EncodeChar ++ rest) = text ++ decode rest := by
  induction text with
  | nil => rfl
  | cons c text ih =>
    rw [List.flatMap_cons, List.append_assoc, decode_utf8EncodeChar, ih, List.cons_append]

theorem decode_toUTF8 (text : String) : decode text.toUTF8.data.toList = text.toList := by
  have h := decode_flatMap_utf8EncodeChar text.toList []
  rw [List.append_nil] at h
  rw [toList_toUTF8, h]
  exact List.append_nil _

/-! ## No line feed out of other bytes -/

/-- A character behind the ASCII range is no line feed, nor is what stands for a value
that no character has. -/
theorem ofNat_ne_newline {n : Nat} (h : 0x80 ≤ n) : Char.ofNat n ≠ '\n' := by
  by_cases hvalid : n.isValidChar
  · have hchar : Char.ofNat n = Char.ofNatAux n hvalid := dif_pos hvalid
    rw [hchar]
    intro heq
    have hn : n = 10 := congrArg Char.toNat heq
    omega
  · have hchar : Char.ofNat n = Char.ofNatAux 0 (by decide) := dif_neg hvalid
    rw [hchar]
    decide

theorem toNat_ofNat_ascii {n : Nat} (h : n < 0x80) : (Char.ofNat n).toNat = n := by
  have hvalid : n.isValidChar := Or.inl (by omega)
  have hchar : Char.ofNat n = Char.ofNatAux n hvalid := dif_pos hvalid
  rw [hchar]
  rfl

/-- Every value that the sequence can still reach lies behind the ASCII range: the
least of them is the one whose missing bytes are as small as they may be. -/
def Pending.IsLong (p : Pending) : Prop :=
  0x80 ≤ (p.value * 64 + (p.low - 0x80)) * 64 ^ p.further

instance (p : Pending) : Decidable p.IsLong :=
  inferInstanceAs (Decidable (_ ≤ _))

/-- What a byte makes of a state holds no line feed, and the sequence it leaves begun,
if any, is long. -/
def Clean (outcome : List Char × Option Pending) : Prop :=
  '\n' ∉ outcome.1 ∧ ∀ p, outcome.2 = some p → p.IsLong

theorem clean_char {c : Char} (h : c ≠ '\n') : Clean ([c], none) := by
  refine ⟨?_, fun p hp => absurd hp (by simp)⟩
  rw [List.mem_singleton]
  exact h.symm

theorem clean_pending {p : Pending} (h : p.IsLong) : Clean ([], some p) := by
  refine ⟨List.not_mem_nil, ?_⟩
  rintro q hq
  rw [← Option.some.inj hq]
  exact h

theorem Clean.ite {condition : Prop} [Decidable condition] {yes no : List Char × Option Pending}
    (hyes : condition → Clean yes) (hno : ¬ condition → Clean no) :
    Clean (if condition then yes else no) := by
  by_cases h : condition
  · rw [if_pos h]
    exact hyes h
  · rw [if_neg h]
    exact hno h

theorem clean_start {byte : UInt8} (h : byte ≠ lineFeed) : Clean (start byte) := by
  have hreplacement : Clean ([replacement], none) := clean_char (by decide)
  unfold start
  refine Clean.ite (fun hlow => clean_char fun heq => ?_) fun _ => ?_
  · have hn : byte.toNat = 10 :=
      (toNat_ofNat_ascii hlow).symm.trans (congrArg Char.toNat heq)
    exact h (UInt8.toNat_inj.mp hn)
  refine Clean.ite (fun _ => hreplacement) fun htwo => ?_
  refine Clean.ite (fun _ => clean_pending ?_) fun hthree => ?_
  · show 0x80 ≤ ((byte.toNat - 0xC0) * 64 + (0x80 - 0x80)) * 64 ^ 0
    omega
  refine Clean.ite (fun _ => clean_pending (by decide)) fun _ => ?_
  refine Clean.ite (fun _ => clean_pending (by decide)) fun _ => ?_
  refine Clean.ite (fun _ => clean_pending ?_) fun hfour => ?_
  · show 0x80 ≤ ((byte.toNat - 0xE0) * 64 + (0x80 - 0x80)) * 64 ^ 1
    omega
  refine Clean.ite (fun _ => clean_pending (by decide)) fun _ => ?_
  refine Clean.ite (fun _ => clean_pending ?_) fun _ => ?_
  · show 0x80 ≤ ((byte.toNat - 0xF0) * 64 + (0x80 - 0x80)) * 64 ^ 2
    omega
  exact Clean.ite (fun _ => clean_pending (by decide)) fun _ => hreplacement

/-- **A byte keeps long sequences long.**  What it completes lies behind the ASCII
range. -/
theorem clean_step {p : Pending} (hp : p.IsLong) {byte : UInt8} (h : byte ≠ lineFeed) :
    Clean (step (some p) byte) := by
  rw [step]
  split
  · next hrange =>
    have hvalue : p.value * 64 + (p.low - 0x80) ≤ p.value * 64 + (byte.toNat - 0x80) := by
      have := hrange.1
      omega
    unfold Pending.IsLong at hp
    simp only
    split
    · next hlast =>
      rw [hlast, Nat.pow_zero, Nat.mul_one] at hp
      exact clean_char (ofNat_ne_newline (Nat.le_trans hp hvalue))
    · next further hmore =>
      refine clean_pending ?_
      rw [hmore, Nat.pow_succ'] at hp
      show 0x80 ≤ ((p.value * 64 + (byte.toNat - 0x80)) * 64 + (0x80 - 0x80)) * 64 ^ further
      rw [Nat.sub_self, Nat.add_zero, Nat.mul_assoc]
      exact Nat.le_trans hp (Nat.mul_le_mul_right _ hvalue)
  · obtain ⟨hchars, hpending⟩ := clean_start h
    refine ⟨?_, hpending⟩
    rw [List.mem_cons, not_or]
    exact ⟨by decide, hchars⟩

/-- Behind a long sequence, or behind none, bytes without a line feed give no line
feed. -/
theorem newline_notMem_decodeFrom {state : Option Pending}
    (hstate : ∀ p, state = some p → p.IsLong) {bytes : List UInt8} (h : lineFeed ∉ bytes) :
    '\n' ∉ decodeFrom state bytes := by
  induction bytes generalizing state with
  | nil =>
    cases state with
    | none => exact List.not_mem_nil
    | some p =>
      show '\n' ∉ [replacement]
      decide
  | cons byte bytes ih =>
    rw [List.mem_cons, not_or] at h
    have hclean : Clean (step state byte) := by
      cases state with
      | none => exact clean_start (Ne.symm h.1)
      | some p => exact clean_step (hstate p rfl) (Ne.symm h.1)
    rw [decodeFrom, List.mem_append, not_or]
    exact ⟨hclean.1, ih hclean.2 h.2⟩

/-- **Bytes without a line feed decode to a text without one.** -/
theorem newline_notMem_decode {bytes : List UInt8} (h : lineFeed ∉ bytes) :
    '\n' ∉ decode bytes :=
  newline_notMem_decodeFrom (fun _ hp => absurd hp (by simp)) h

end Utf8

/-- A raw text that is a text is shown as it is. -/
theorem RawText.text?_of_isText {raw : RawText} (h : raw.IsText) :
    raw.text? = some raw.shown := by
  obtain ⟨text, htext⟩ := Option.isSome_iff_exists.mp h
  rw [htext, eq_of_text?_eq_some htext]
  unfold shown ofString
  rw [Utf8.decode_toUTF8, String.ofList_toList]

end PrintPath
