import Changelog.Proofs.Text.Replace
import Changelog.Text.Utf8

/-!
# Texts and their bytes

Reading bytes and writing texts undo each other.  Where reading fails it has read the longest front
part of the bytes that is the bytes of a text: a character that is begun there is not counted.
-/

namespace Changelog.Utf8

/-! ### Bytes as numbers -/

theorem toNat_ofNat {n : Nat} (h : n < 256) : (UInt8.ofNat n).toNat = n :=
  UInt8.toNat_ofNat_of_lt' h

theorem eq_ofNat {b : UInt8} {n : Nat} (h : b.toNat = n) : UInt8.ofNat n = b := by
  rw [← h]
  exact UInt8.ofNat_toNat

theorem lead?_eq (b : UInt8) : lead? b =
    if b.toNat < 0x80 then some (0, b.toNat)
    else if b.toNat < 0xC2 then none
    else if b.toNat < 0xE0 then some (1, b.toNat - 0xC0)
    else if b.toNat < 0xF0 then some (2, b.toNat - 0xE0)
    else if b.toNat < 0xF5 then some (3, b.toNat - 0xF0)
    else none := by
  simp only [lead?, UInt8.lt_iff_toNat_lt, UInt8.reduceToNat]

theorem mayFollow_iff (b : UInt8) : mayFollow b = true ↔ 0x80 ≤ b.toNat ∧ b.toNat ≤ 0xBF := by
  simp only [mayFollow, Bool.and_eq_true, decide_eq_true_eq, UInt8.le_iff_toNat_le,
    UInt8.reduceToNat]

theorem maySecond_iff (first b : UInt8) : maySecond first b = true ↔
    (0x80 ≤ b.toNat ∧ b.toNat ≤ 0xBF) ∧ (first.toNat = 0xE0 → 0xA0 ≤ b.toNat) ∧
      (first.toNat = 0xED → b.toNat ≤ 0x9F) ∧ (first.toNat = 0xF0 → 0x90 ≤ b.toNat) ∧
      (first.toNat = 0xF4 → b.toNat ≤ 0x8F) := by
  simp only [maySecond, beq_iff_eq, ← UInt8.toNat_inj, UInt8.reduceToNat]
  split
  · simp only [Bool.and_eq_true, decide_eq_true_eq, UInt8.le_iff_toNat_le, UInt8.reduceToNat]
    omega
  split
  · simp only [Bool.and_eq_true, decide_eq_true_eq, UInt8.le_iff_toNat_le, UInt8.reduceToNat]
    omega
  split
  · simp only [Bool.and_eq_true, decide_eq_true_eq, UInt8.le_iff_toNat_le, UInt8.reduceToNat]
    omega
  split
  · simp only [Bool.and_eq_true, decide_eq_true_eq, UInt8.le_iff_toNat_le, UInt8.reduceToNat]
    omega
  · simp only [Bool.and_eq_true, decide_eq_true_eq, UInt8.le_iff_toNat_le, UInt8.reduceToNat]
    omega

/-! ### Characters -/

/-- A number that is the code of a character. -/
def IsCode (n : Nat) : Prop :=
  n < 0xD800 ∨ 0xDFFF < n ∧ n < 0x110000

/-- The bytes of a code. -/
def bytesOf (n : Nat) : List UInt8 :=
  if n < 0x80 then [.ofNat n]
  else if n < 0x800 then [.ofNat (0xC0 + n / 64), .ofNat (0x80 + n % 64)]
  else if n < 0x10000 then
    [.ofNat (0xE0 + n / 4096), .ofNat (0x80 + n / 64 % 64), .ofNat (0x80 + n % 64)]
  else
    [.ofNat (0xF0 + n / 262144), .ofNat (0x80 + n / 4096 % 64), .ofNat (0x80 + n / 64 % 64),
      .ofNat (0x80 + n % 64)]

theorem isCode_toNat (c : Char) : IsCode c.toNat :=
  c.valid

theorem toNat_ofCode {n : Nat} (h : IsCode n) : (Char.ofNat n).toNat = n := by
  have hvalid : n.isValidChar := h
  unfold Char.ofNat
  rw [dif_pos hvalid]
  rfl

theorem encodeChar_eq (c : Char) : String.utf8EncodeChar c = bytesOf c.toNat := by
  have hcode := isCode_toNat c
  unfold String.utf8EncodeChar bytesOf
  change (if c.toNat ≤ 127 then [UInt8.ofNat c.toNat] else
    if c.toNat ≤ 2047 then [.ofNat (c.toNat / 64 % 32 + 192), .ofNat (c.toNat % 64 + 128)] else
    if c.toNat ≤ 65535 then [.ofNat (c.toNat / 4096 % 16 + 224), .ofNat (c.toNat / 64 % 64 + 128),
      .ofNat (c.toNat % 64 + 128)] else
    [.ofNat (c.toNat / 262144 % 8 + 240), .ofNat (c.toNat / 4096 % 64 + 128),
      .ofNat (c.toNat / 64 % 64 + 128), .ofNat (c.toNat % 64 + 128)]) = _
  generalize c.toNat = n at hcode
  unfold IsCode at hcode
  have hfollow (k : Nat) : k % 64 + 128 = 0x80 + k % 64 := Nat.add_comm _ _
  simp only [hfollow]
  by_cases h1 : n < 0x80
  · rw [if_pos (by omega), if_pos h1]
  rw [if_neg (by omega), if_neg h1]
  by_cases h2 : n < 0x800
  · have hfirst : n / 64 % 32 + 192 = 0xC0 + n / 64 := by omega
    rw [if_pos (by omega), if_pos h2, hfirst]
  rw [if_neg (by omega), if_neg h2]
  by_cases h3 : n < 0x10000
  · have hfirst : n / 4096 % 16 + 224 = 0xE0 + n / 4096 := by omega
    rw [if_pos (by omega), if_pos h3, hfirst]
  · have hfirst : n / 262144 % 8 + 240 = 0xF0 + n / 262144 := by omega
    rw [if_neg (by omega), if_neg h3, hfirst]

theorem readRest_next {may : UInt8 → Bool} {b : UInt8} (h : may b = true)
    (missing done value : Nat) (bytes : List UInt8) :
    readRest may (missing + 1) done value (b :: bytes) =
      readRest mayFollow missing (done + 1) (value * 64 + (b.toNat - 0x80)) bytes := by
  rw [readRest, if_pos h]

theorem readRest_follow {k : Nat} (h : k < 64) (missing done value : Nat) (bytes : List UInt8) :
    readRest mayFollow (missing + 1) done value (.ofNat (0x80 + k) :: bytes) =
      readRest mayFollow missing (done + 1) (value * 64 + k) bytes := by
  have hk := toNat_ofNat (n := 0x80 + k) (by omega)
  rw [readRest_next ((mayFollow_iff _).mpr (by rw [hk]; omega)), hk, Nat.add_sub_cancel_left]

/-- The second byte of a code may stand behind the first one. -/
theorem readRest_second {first k : Nat} (hf : first < 256) (hk : k < 64)
    (h : (first = 0xE0 → 0x20 ≤ k) ∧ (first = 0xED → k < 0x20) ∧ (first = 0xF0 → 0x10 ≤ k) ∧
      (first = 0xF4 → k < 0x10)) (missing value : Nat) (bytes : List UInt8) :
    readRest (maySecond (.ofNat first)) (missing + 1) 1 value (.ofNat (0x80 + k) :: bytes) =
      readRest mayFollow missing 2 (value * 64 + k) bytes := by
  have hsecond := toNat_ofNat (n := 0x80 + k) (by omega)
  rw [readRest_next ((maySecond_iff _ _).mpr (by rw [hsecond, toNat_ofNat hf]; omega)), hsecond,
    Nat.add_sub_cancel_left]

/-- A character is read back from its bytes. -/
theorem readChar_bytesOf {n : Nat} (h : IsCode n) : ∃ first others,
    bytesOf n = first :: others ∧
      ∀ rest, readChar first (others ++ rest) = .ok (Char.ofNat n, others.length, rest) := by
  unfold IsCode at h
  unfold bytesOf
  split
  · next h1 =>
    refine ⟨_, _, rfl, fun rest => ?_⟩
    unfold readChar
    rw [lead?_eq, toNat_ofNat (by omega), if_pos h1]
    rfl
  next h1 =>
  split
  · next h2 =>
    refine ⟨_, _, rfl, fun rest => ?_⟩
    unfold readChar
    rw [lead?_eq, toNat_ofNat (by omega), if_neg (by omega), if_neg (by omega),
      if_pos (by omega)]
    dsimp only [List.cons_append, List.nil_append]
    rw [readRest_second (by omega) (by omega) (by omega)]
    have hvalue : (0xC0 + n / 64 - 192) * 64 + n % 64 = n := by omega
    rw [hvalue]
    rfl
  next h2 =>
  split
  · next h3 =>
    refine ⟨_, _, rfl, fun rest => ?_⟩
    unfold readChar
    rw [lead?_eq, toNat_ofNat (by omega), if_neg (by omega), if_neg (by omega),
      if_neg (by omega), if_pos (by omega)]
    dsimp only [List.cons_append, List.nil_append]
    rw [readRest_second (by omega) (by omega) (by omega), readRest_follow (by omega)]
    have hvalue : ((0xE0 + n / 4096 - 224) * 64 + n / 64 % 64) * 64 + n % 64 = n := by omega
    rw [hvalue]
    rfl
  · refine ⟨_, _, rfl, fun rest => ?_⟩
    unfold readChar
    rw [lead?_eq, toNat_ofNat (by omega), if_neg (by omega), if_neg (by omega),
      if_neg (by omega), if_neg (by omega), if_pos (by omega)]
    dsimp only [List.cons_append, List.nil_append]
    rw [readRest_second (by omega) (by omega) (by omega), readRest_follow (by omega),
      readRest_follow (by omega)]
    have hvalue : (((0xF0 + n / 262144 - 240) * 64 + n / 4096 % 64) * 64 + n / 64 % 64) * 64 +
        n % 64 = n := by omega
    rw [hvalue]
    rfl

theorem readRest_ok {may : UInt8 → Bool} {missing done value : Nat} {bytes : List UInt8}
    {r : Nat × List UInt8} (h : readRest may (missing + 1) done value bytes = .ok r) :
    ∃ b more, bytes = b :: more ∧ may b = true ∧
      readRest mayFollow missing (done + 1) (value * 64 + (b.toNat - 0x80)) more = .ok r := by
  cases bytes with
  | nil => cases h
  | cons b more =>
    rw [readRest] at h
    split at h
    · next hb => exact ⟨b, more, rfl, hb, h⟩
    · cases h

theorem read_eq {done value missing others : Nat} {more rest : List UInt8} {c : Char}
    {r : Nat × List UInt8} (hr : readRest mayFollow 0 done value more = .ok r)
    (heq : (Char.ofNat r.1, missing, r.2) = (c, others, rest)) :
    c = Char.ofNat value ∧ others = missing ∧ rest = more := by
  have hpair : (value, more) = r := Except.ok.inj hr
  rw [← hpair] at heq
  obtain ⟨hc, hbehind⟩ := Prod.mk.inj heq
  obtain ⟨ho, hm⟩ := Prod.mk.inj hbehind
  exact ⟨hc.symm, ho.symm, hm.symm⟩

/-- What is read as a character is its bytes. -/
theorem readChar_ok {first : UInt8} {bytes rest : List UInt8} {c : Char} {others : Nat}
    (h : readChar first bytes = .ok (c, others, rest)) :
    ∃ n, IsCode n ∧ c = Char.ofNat n ∧ first :: bytes = bytesOf n ++ rest ∧
      (bytesOf n).length = others + 1 := by
  have hlimit := first.toNat_lt
  unfold readChar at h
  rw [lead?_eq] at h
  -- The first byte tells how many follow.
  by_cases h1 : first.toNat < 0x80
  · rw [if_pos h1] at h
    cases h
    refine ⟨first.toNat, Or.inl (by omega), rfl, ?_⟩
    rw [bytesOf, if_pos h1, eq_ofNat rfl]
    exact ⟨rfl, rfl⟩
  rw [if_neg h1] at h
  by_cases h2 : first.toNat < 0xC2
  · rw [if_pos h2] at h
    cases h
  rw [if_neg h2] at h
  by_cases h3 : first.toNat < 0xE0
  · rw [if_pos h3] at h
    obtain ⟨r, hr, heq⟩ := Text.map_ok h
    obtain ⟨second, rest1, rfl, h6, hr⟩ := readRest_ok hr
    obtain ⟨hc, ho, hrest⟩ := read_eq hr heq
    rw [maySecond_iff] at h6
    refine ⟨(first.toNat - 0xC0) * 64 + (second.toNat - 0x80), Or.inl (by omega), hc, ?_⟩
    rw [hrest, ho, bytesOf, if_neg (by omega), if_pos (by omega), eq_ofNat (b := first) (by omega),
      eq_ofNat (b := second) (by omega)]
    exact ⟨rfl, rfl⟩
  rw [if_neg h3] at h
  by_cases h4 : first.toNat < 0xF0
  · rw [if_pos h4] at h
    obtain ⟨r, hr, heq⟩ := Text.map_ok h
    obtain ⟨second, rest1, rfl, h6, hr⟩ := readRest_ok hr
    obtain ⟨third, rest2, rfl, h7, hr⟩ := readRest_ok hr
    obtain ⟨hc, ho, hrest⟩ := read_eq hr heq
    rw [maySecond_iff] at h6
    rw [mayFollow_iff] at h7
    refine ⟨((first.toNat - 0xE0) * 64 + (second.toNat - 0x80)) * 64 + (third.toNat - 0x80),
      by unfold IsCode; omega, hc, ?_⟩
    rw [hrest, ho, bytesOf, if_neg (by omega), if_neg (by omega), if_pos (by omega),
      eq_ofNat (b := first) (by omega), eq_ofNat (b := second) (by omega),
      eq_ofNat (b := third) (by omega)]
    exact ⟨rfl, rfl⟩
  rw [if_neg h4] at h
  by_cases h5 : first.toNat < 0xF5
  · rw [if_pos h5] at h
    obtain ⟨r, hr, heq⟩ := Text.map_ok h
    obtain ⟨second, rest1, rfl, h6, hr⟩ := readRest_ok hr
    obtain ⟨third, rest2, rfl, h7, hr⟩ := readRest_ok hr
    obtain ⟨fourth, rest3, rfl, h8, hr⟩ := readRest_ok hr
    obtain ⟨hc, ho, hrest⟩ := read_eq hr heq
    rw [maySecond_iff] at h6
    rw [mayFollow_iff] at h7 h8
    refine ⟨(((first.toNat - 0xF0) * 64 + (second.toNat - 0x80)) * 64 + (third.toNat - 0x80)) * 64 +
      (fourth.toNat - 0x80), by unfold IsCode; omega, hc, ?_⟩
    rw [hrest, ho, bytesOf, if_neg (by omega), if_neg (by omega), if_neg (by omega),
      eq_ofNat (b := first) (by omega), eq_ofNat (b := second) (by omega),
      eq_ofNat (b := third) (by omega), eq_ofNat (b := fourth) (by omega)]
    exact ⟨rfl, rfl⟩
  · rw [if_neg h5] at h
    cases h

/-! ### Texts -/

theorem encode_cons (c : Char) (cs : Text) : encode (c :: cs) = bytesOf c.toNat ++ encode cs := by
  rw [← encodeChar_eq]
  rfl

/-- A character at the front of bytes is the one that is read there. -/
theorem readChar_front {first : UInt8} {bytes rest : List UInt8} {c : Char}
    (h : first :: bytes = bytesOf c.toNat ++ rest) :
    ∃ others, readChar first bytes = .ok (c, others, rest) := by
  obtain ⟨b, others, hbytes, hread⟩ := readChar_bytesOf (isCode_toNat c)
  rw [hbytes, List.cons_append] at h
  obtain ⟨rfl, rfl⟩ := List.cons.inj h
  rw [hread rest, Char.ofNat_toNat]
  exact ⟨others.length, rfl⟩

/-- Bytes have one character at their front. -/
theorem bytesOf_append_inj {c d : Char} {xs ys : List UInt8}
    (h : bytesOf c.toNat ++ xs = bytesOf d.toNat ++ ys) : c = d ∧ xs = ys := by
  obtain ⟨first, others, hbytes, -⟩ := readChar_bytesOf (isCode_toNat c)
  have hfront : first :: (others ++ xs) = bytesOf c.toNat ++ xs := by rw [hbytes, List.cons_append]
  obtain ⟨n, hc⟩ := readChar_front hfront
  obtain ⟨m, hd⟩ := readChar_front (hfront.trans h)
  rw [hc] at hd
  cases hd
  exact ⟨rfl, rfl⟩

theorem decodeFrom_spec (position steps : Nat) (bytes : List UInt8) (hs : bytes.length ≤ steps) :
    (∃ cs, decodeFrom position steps bytes = .ok cs ∧ encode cs = bytes) ∨
    ∃ cs first behind e, bytes = encode cs ++ first :: behind ∧
      decodeFrom position steps bytes = .error e ∧ e.byte = first ∧
      e.position = position + (encode cs).length ∧
      readChar first behind = .error (e.length, e.reason) := by
  induction steps generalizing position bytes with
  | zero =>
    rw [List.length_eq_zero_iff.mp (Nat.le_zero.mp hs)]
    exact Or.inl ⟨[], rfl, rfl⟩
  | succ steps ih =>
    cases bytes with
    | nil => exact Or.inl ⟨[], rfl, rfl⟩
    | cons first bytes =>
      unfold decodeFrom
      cases hr : readChar first bytes with
      | error wrong =>
        obtain ⟨length, reason⟩ := wrong
        exact Or.inr ⟨[], first, bytes, ⟨first, position, length, reason⟩, rfl, rfl, rfl, rfl, hr⟩
      | ok r =>
        obtain ⟨c, others, rest⟩ := r
        obtain ⟨n, hn, rfl, hbytes, hlength⟩ := readChar_ok hr
        have hcode := toNat_ofCode hn
        have hrest : rest.length ≤ steps := by
          have htotal := congrArg List.length hbytes
          rw [List.length_append, hlength, List.length_cons] at htotal
          rw [List.length_cons] at hs
          omega
        dsimp only
        rcases ih (position + 1 + others) rest hrest with
          ⟨cs, hdecode, hencode⟩ | ⟨cs, b, behind, e, hcut, hdecode, hbyte, hposition, hread⟩
        · refine Or.inl ⟨Char.ofNat n :: cs, by rw [hdecode]; rfl, ?_⟩
          rw [encode_cons, hcode, hencode, hbytes]
        · refine Or.inr ⟨Char.ofNat n :: cs, b, behind, e, ?_, by rw [hdecode]; rfl, hbyte, ?_,
            hread⟩
          · rw [encode_cons, hcode, hbytes, hcut, List.append_assoc]
          · rw [hposition, encode_cons, hcode, List.length_append, hlength]
            omega

/-- Where texts at the front of bytes and bytes that begin no character behind them are given, no
longer text is at the front. -/
theorem encode_le_of_stop {first : UInt8} {behind : List UInt8} {wrong : Nat × Reason}
    (h : readChar first behind = .error wrong) (cs ds : Text) {bytes rest : List UInt8}
    (hcs : bytes = encode cs ++ first :: behind) (hds : bytes = encode ds ++ rest) :
    (encode ds).length ≤ (encode cs).length := by
  induction cs generalizing ds bytes with
  | nil =>
    cases ds with
    | nil => exact Nat.le_refl _
    | cons d ds =>
      rw [hcs, encode_cons, List.append_assoc] at hds
      obtain ⟨others, hread⟩ := readChar_front hds
      rw [h] at hread
      cases hread
  | cons c cs ih =>
    cases ds with
    | nil => exact Nat.zero_le _
    | cons d ds =>
      rw [hcs, encode_cons, encode_cons, List.append_assoc, List.append_assoc] at hds
      -- Both texts begin with the character that is read at the front.
      obtain ⟨rfl, hrest⟩ := bytesOf_append_inj hds
      rw [encode_cons, encode_cons, List.length_append, List.length_append]
      exact Nat.add_le_add_left (ih ds rfl hrest) _

/-- Different texts have different bytes. -/
theorem encode_inj {cs ds : Text} (h : encode cs = encode ds) : cs = ds := by
  induction cs generalizing ds with
  | nil =>
    cases ds with
    | nil => rfl
    | cons d ds =>
      obtain ⟨first, others, hbytes, -⟩ := readChar_bytesOf (isCode_toNat d)
      rw [encode_cons, hbytes] at h
      cases h
  | cons c cs ih =>
    cases ds with
    | nil =>
      obtain ⟨first, others, hbytes, -⟩ := readChar_bytesOf (isCode_toNat c)
      rw [encode_cons, hbytes] at h
      cases h
    | cons d ds =>
      rw [encode_cons, encode_cons] at h
      obtain ⟨rfl, hrest⟩ := bytesOf_append_inj h
      rw [ih hrest]

/-- The longest front part of bytes that is the bytes of a text takes so many of them. -/
structure LongestText (bytes : List UInt8) (n : Nat) : Prop where
  text : ∃ cs, encode cs = bytes.take n
  longest : ∀ cs, encode cs <+: bytes → (encode cs).length ≤ n

/-- Bytes are read as a text exactly if they are the bytes of that text. -/
theorem decode_eq_ok {bytes : List UInt8} {cs : Text} :
    decode bytes = .ok cs ↔ encode cs = bytes := by
  have hspec := decodeFrom_spec 0 bytes.length bytes (Nat.le_refl _)
  constructor
  · intro h
    rcases hspec with ⟨ds, hdecode, hencode⟩ | ⟨ds, first, behind, e, -, hdecode, -⟩
    · cases hdecode.symm.trans h
      exact hencode
    · cases hdecode.symm.trans h
  · intro h
    rcases hspec with ⟨ds, hdecode, hencode⟩ | ⟨ds, first, behind, e, hcut, -, -, -, hread⟩
    · rw [encode_inj (h.trans hencode.symm)]
      exact hdecode
    · have hlength := encode_le_of_stop hread ds cs hcut (h.symm.trans (List.append_nil _).symm)
      rw [h, hcut, List.length_append, List.length_cons] at hlength
      omega

/-- Where reading fails the longest front part that is text ends, before the end of the bytes. -/
theorem decode_eq_error {bytes : List UInt8} {e : Error} (h : decode bytes = .error e) :
    e.position < bytes.length ∧ LongestText bytes e.position := by
  rcases decodeFrom_spec 0 bytes.length bytes (Nat.le_refl _) with
    ⟨ds, hdecode, -⟩ | ⟨cs, first, behind, e', hcut, hdecode, -, hposition, hread⟩
  · cases hdecode.symm.trans h
  · cases hdecode.symm.trans h
    rw [Nat.zero_add] at hposition
    rw [hposition]
    refine ⟨?_, ⟨cs, ?_⟩, fun ds ⟨rest, hds⟩ => encode_le_of_stop hread cs ds hcut hds.symm⟩
    · rw [hcut, List.length_append, List.length_cons]
      omega
    · rw [hcut, List.take_left]

end Changelog.Utf8
