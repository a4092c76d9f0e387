import Mathlib.Algebra.Group.Nat.Defs
import Mathlib.Data.List.Infix
import QueryOutline.CommandLine.Excerpt

/-!
Cut documents. Bytes are cut off at the end of a text, and what is left is decoded by dropping
what does not decode. A cut goes behind some characters and into the next one. Behind the
characters nothing is pending, and of the next one some bytes are still to come when the bytes
end, so that it is dropped and nothing else is.
-/

namespace QueryOutline

namespace Text

/-! What is left of a character behind its first bytes. -/

/-- The last bytes of a character, each with six bits of its number. -/
def continuation (n : Nat) : Nat → List UInt8
  | 0 => []
  | count + 1 => UInt8.ofNat (n / 64 ^ count % 64 + 0x80) :: continuation n count

@[simp] theorem length_continuation (n count : Nat) : (continuation n count).length = count := by
  induction count with
  | zero => rfl
  | succ count ih => rw [continuation, List.length_cons, ih]

theorem toNat_ofNat_of_lt {m : Nat} (hm : m < 256) : (UInt8.ofNat m).toNat = m := by
  rw [UInt8.toNat_ofNat', Nat.mod_eq_of_lt hm]

/-- What has been read of a number, and nothing forbids what is to come. -/
structure BegunChar.Begins (p : BegunChar) (n : Nat) : Prop where
  bits : p.bits = n / 64 ^ p.owed
  allowed : ∀ count, p.owed = count + 1 →
    p.least ≤ n / 64 ^ count % 64 + 0x80 ∧ n / 64 ^ count % 64 + 0x80 ≤ p.greatest

theorem BegunChar.Begins.exists_next {p : BegunChar} {n count : Nat} (h : p.Begins n)
    (hcount : p.owed = count + 1) :
    ∃ q, p.next? (UInt8.ofNat (n / 64 ^ count % 64 + 0x80)) = some q ∧ q.owed = count ∧
      q.Begins n := by
  have hmod : n / 64 ^ count % 64 < 64 := Nat.mod_lt _ (by decide)
  have hbyte : (UInt8.ofNat (n / 64 ^ count % 64 + 0x80)).toNat = n / 64 ^ count % 64 + 0x80 :=
    toNat_ofNat_of_lt (by omega)
  refine ⟨{ bits := n / 64 ^ count, owed := count }, ?_, rfl, rfl, ?_⟩
  · have hbits : p.bits * 0x40 + n / 64 ^ count % 64 = n / 64 ^ count := by
      rw [h.bits, hcount, Nat.pow_succ, ← Nat.div_div_eq_div_mul]
      exact Nat.div_add_mod' _ _
    obtain ⟨hleast, hgreatest⟩ := h.allowed count hcount
    simp only [next?, hbyte, hleast, hgreatest, decide_true, Bool.and_self, if_true, hcount,
      Nat.add_sub_cancel, hbits]
  · intro count' hcount'
    have hmod' : n / 64 ^ count' % 64 < 64 := Nat.mod_lt _ (by decide)
    exact ⟨Nat.le_add_left _ _, by change _ ≤ 0xBF; omega⟩

namespace BegunChar

theorem ofFirst?_one {m : Nat} (h : m < 0x80) :
    ofFirst? (UInt8.ofNat m) = some { bits := m, owed := 0 } := by
  rw [ofFirst?, toNat_ofNat_of_lt (by omega), if_pos h]

theorem ofFirst?_two {m : Nat} (h : 0xC2 ≤ m) (h' : m < 0xE0) :
    ofFirst? (UInt8.ofNat m) = some { bits := m - 0xC0, owed := 1 } := by
  rw [ofFirst?, toNat_ofNat_of_lt (by omega), if_neg (by omega), if_neg (by omega), if_pos h']

theorem ofFirst?_three {m : Nat} (h : 0xE0 ≤ m) (h' : m < 0xF0) :
    ofFirst? (UInt8.ofNat m) = some
      { bits := m - 0xE0, owed := 2
        least := if m = 0xE0 then 0xA0 else 0x80
        greatest := if m = 0xED then 0x9F else 0xBF } := by
  rw [ofFirst?, toNat_ofNat_of_lt (by omega), if_neg (by omega), if_neg (by omega),
    if_neg (by omega), if_pos h']

theorem ofFirst?_four {m : Nat} (h : 0xF0 ≤ m) (h' : m < 0xF5) :
    ofFirst? (UInt8.ofNat m) = some
      { bits := m - 0xF0, owed := 3
        least := if m = 0xF0 then 0x90 else 0x80
        greatest := if m = 0xF4 then 0x8F else 0xBF } := by
  rw [ofFirst?, toNat_ofNat_of_lt (by omega), if_neg (by omega), if_neg (by omega),
    if_neg (by omega), if_neg (by omega), if_pos h']

end BegunChar

/-- The first byte of a character says how many bytes there are, and it has the bits that the
others have no room for. -/
theorem exists_ofFirst? (c : Char) :
    ∃ b p, String.utf8EncodeChar c = b :: continuation c.toNat p.owed ∧
      BegunChar.ofFirst? b = some p ∧ p.Begins c.toNat := by
  have hvalid : c.toNat < 0xD800 ∨ 0xDFFF < c.toNat ∧ c.toNat < 0x110000 := c.valid
  have hencode : String.utf8EncodeChar c = _ := String.utf8EncodeChar.eq_1 c
  rw [hencode, show c.val.toNat = c.toNat from rfl]
  clear hencode
  generalize c.toNat = n at hvalid ⊢
  by_cases h₁ : n ≤ 0x7F
  · rw [if_pos h₁]
    exact ⟨_, _, rfl, BegunChar.ofFirst?_one (by omega), by simp, by simp⟩
  rw [if_neg h₁]
  by_cases h₂ : n ≤ 0x7FF
  · rw [if_pos h₂]
    have hleast : 0xC2 ≤ n / 64 % 32 + 0xC0 := by omega
    have hgreatest : n / 64 % 32 + 0xC0 < 0xE0 := by omega
    refine ⟨_, _, ?_, BegunChar.ofFirst?_two hleast hgreatest, ?_, ?_⟩
    · simp only [continuation, Nat.pow_zero, Nat.div_one]
    · change n / 64 % 32 + 0xC0 - 0xC0 = n / 64
      omega
    · intro count hcount
      obtain rfl : count = 0 := by simpa using hcount.symm
      change 0x80 ≤ _ ∧ _ ≤ 0xBF
      omega
  rw [if_neg h₂]
  by_cases h₃ : n ≤ 0xFFFF
  · rw [if_pos h₃]
    have hleast : 0xE0 ≤ n / 4096 % 16 + 0xE0 := by omega
    have hgreatest : n / 4096 % 16 + 0xE0 < 0xF0 := by omega
    refine ⟨_, _, ?_, BegunChar.ofFirst?_three hleast hgreatest, ?_, ?_⟩
    · simp only [continuation, Nat.reducePow, Nat.div_one]
    · change n / 4096 % 16 + 0xE0 - 0xE0 = n / 4096
      omega
    · intro count hcount
      obtain rfl : count = 1 := by simpa using hcount.symm
      dsimp only
      constructor <;> split <;> omega
  · rw [if_neg h₃]
    have hleast : 0xF0 ≤ n / 262144 % 8 + 0xF0 := by omega
    have hgreatest : n / 262144 % 8 + 0xF0 < 0xF5 := by omega
    refine ⟨_, _, ?_, BegunChar.ofFirst?_four hleast hgreatest, ?_, ?_⟩
    · simp only [continuation, Nat.reducePow, Nat.div_one]
    · change n / 262144 % 8 + 0xF0 - 0xF0 = n / 262144
      omega
    · intro count hcount
      obtain rfl : count = 2 := by simpa using hcount.symm
      dsimp only
      constructor <;> split <;> omega

theorem encodeUtf8_cons (c : Char) (cs : List Char) :
    encodeUtf8 (c :: cs) = String.utf8EncodeChar c ++ encodeUtf8 cs :=
  List.flatMap_cons

/-! What the bytes of one character do. -/

namespace TolerantDecoding

variable {found : List Char} {p : BegunChar} {n count : Nat}

theorem step_continuation (found : List Char) (h : p.Begins n) (hcount : p.owed = count + 1) :
    ∃ q : BegunChar, q.owed = count ∧ q.Begins n ∧
      step ⟨found, some p⟩ (UInt8.ofNat (n / 64 ^ count % 64 + 0x80)) =
        if count = 0 then ⟨Char.ofNat n :: found, none⟩ else ⟨found, some q⟩ := by
  obtain ⟨q, hnext, hq, hbegins⟩ := h.exists_next hcount
  refine ⟨q, hq, hbegins, ?_⟩
  simp only [step, Option.bind_some, hnext, Option.some_or, hq]
  split
  · next hzero =>
      have hbits : q.bits = n := by simpa [hq, hzero] using hbegins.bits
      rw [hbits]
  · rfl

theorem foldl_continuation (h : p.Begins n) (hcount : p.owed = count + 1) :
    (continuation n (count + 1)).foldl step ⟨found, some p⟩ = ⟨Char.ofNat n :: found, none⟩ := by
  induction count generalizing p with
  | zero =>
      obtain ⟨q, -, -, hstep⟩ := step_continuation found h hcount
      rw [continuation, List.foldl_cons, hstep]
      rfl
  | succ count ih =>
      obtain ⟨q, hq, hbegins, hstep⟩ := step_continuation found h hcount
      rw [continuation, List.foldl_cons, hstep, if_neg (Nat.succ_ne_zero count)]
      exact ih hbegins hq

/-- As long as bytes are to come, nothing is found. -/
theorem found_foldl_take_continuation (h : p.Begins n) (hcount : p.owed = count + 1) {taken : Nat}
    (htaken : taken < count + 1) :
    (((continuation n (count + 1)).take taken).foldl step ⟨found, some p⟩).found = found := by
  induction count generalizing p taken with
  | zero =>
      obtain rfl : taken = 0 := by omega
      rfl
  | succ count ih =>
      cases taken with
      | zero => rfl
      | succ taken =>
          obtain ⟨q, hq, hbegins, hstep⟩ := step_continuation found h hcount
          rw [continuation, List.take_succ_cons, List.foldl_cons, hstep,
            if_neg (Nat.succ_ne_zero count)]
          exact ih hbegins hq (by omega)

theorem step_first {b : UInt8} (h : BegunChar.ofFirst? b = some p) :
    step ⟨found, none⟩ b =
      if p.owed = 0 then ⟨Char.ofNat p.bits :: found, none⟩ else ⟨found, some p⟩ := by
  simp only [step, Option.bind_none, Option.none_or, h]

theorem foldl_utf8EncodeChar (c : Char) (found : List Char) :
    (String.utf8EncodeChar c).foldl step ⟨found, none⟩ = ⟨c :: found, none⟩ := by
  obtain ⟨b, p, hencode, hfirst, hbegins⟩ := exists_ofFirst? c
  rw [hencode, List.foldl_cons, step_first hfirst]
  cases howed : p.owed with
  | zero =>
      have hbits : p.bits = c.toNat := by simpa [howed] using hbegins.bits
      rw [if_pos rfl, hbits, Char.ofNat_toNat]
      rfl
  | succ count =>
      rw [if_neg (Nat.succ_ne_zero count), foldl_continuation hbegins howed, Char.ofNat_toNat]

theorem found_foldl_take_utf8EncodeChar (c : Char) (found : List Char) {taken : Nat}
    (htaken : taken < c.utf8Size) :
    (((String.utf8EncodeChar c).take taken).foldl step ⟨found, none⟩).found = found := by
  obtain ⟨b, p, hencode, hfirst, hbegins⟩ := exists_ofFirst? c
  rw [← String.length_utf8EncodeChar, hencode, List.length_cons, length_continuation] at htaken
  rw [hencode]
  cases taken with
  | zero => rfl
  | succ taken =>
      rw [List.take_succ_cons, List.foldl_cons, step_first hfirst]
      cases howed : p.owed with
      | zero => omega
      | succ count =>
          rw [if_neg (Nat.succ_ne_zero count)]
          exact found_foldl_take_continuation hbegins howed (by omega)

theorem foldl_encodeUtf8 (cs found : List Char) :
    (encodeUtf8 cs).foldl step ⟨found, none⟩ = ⟨cs.reverse ++ found, none⟩ := by
  induction cs generalizing found with
  | nil => rfl
  | cons c cs ih =>
      rw [encodeUtf8_cons, List.foldl_append, foldl_utf8EncodeChar, ih]
      simp

end TolerantDecoding

/-! Where a cut goes. -/

theorem encodeUtf8_append (cs ds : List Char) :
    encodeUtf8 (cs ++ ds) = encodeUtf8 cs ++ encodeUtf8 ds :=
  List.flatMap_append

theorem length_encodeUtf8_concat (cs : List Char) (c : Char) :
    (encodeUtf8 (cs ++ [c])).length = (encodeUtf8 cs).length + c.utf8Size := by
  simp [encodeUtf8]

theorem length_encodeUtf8_le {cs ds : List Char} (h : cs <+: ds) :
    (encodeUtf8 cs).length ≤ (encodeUtf8 ds).length := by
  obtain ⟨rest, rfl⟩ := h
  rw [encodeUtf8_append, List.length_append]
  exact Nat.le_add_right _ _

/-- The characters in front of a cut are decoded, and the one that it goes through is not. -/
theorem decodeTolerantly_take {before after : List Char} {c : Char} {limit : Nat}
    (hbefore : (encodeUtf8 before).length ≤ limit)
    (hc : limit < (encodeUtf8 (before ++ [c])).length) :
    decodeTolerantly ((encodeUtf8 (before ++ c :: after)).take limit) = before := by
  rw [length_encodeUtf8_concat] at hc
  have hbytes : (encodeUtf8 (before ++ c :: after)).take limit =
      encodeUtf8 before ++
        (String.utf8EncodeChar c).take (limit - (encodeUtf8 before).length) := by
    rw [encodeUtf8_append, List.take_append, List.take_of_length_le hbefore, encodeUtf8_cons,
      List.take_append_of_le_length]
    rw [String.length_utf8EncodeChar]
    omega
  rw [decodeTolerantly, hbytes, List.foldl_append, TolerantDecoding.foldl_encodeUtf8,
    TolerantDecoding.found_foldl_take_utf8EncodeChar c _ (by omega), List.append_nil,
    List.reverse_reverse]

/-- Bytes that are too many end within a character, or between two of them. -/
theorem exists_cut {cs : List Char} {limit : Nat} (h : limit < (encodeUtf8 cs).length) :
    ∃ before c after, cs = before ++ c :: after ∧ (encodeUtf8 before).length ≤ limit ∧
      limit < (encodeUtf8 (before ++ [c])).length := by
  induction cs using List.reverseRecOn with
  | nil => simp [encodeUtf8] at h
  | append_singleton cs c ih =>
      by_cases hcs : limit < (encodeUtf8 cs).length
      · obtain ⟨before, d, after, rfl, hbefore, hd⟩ := ih hcs
        exact ⟨before, d, after ++ [c], by simp, hbefore, hd⟩
      · exact ⟨cs, c, [], rfl, Nat.le_of_not_lt hcs, h⟩

end Text

open Text

namespace CommandLine

theorem excerpt_of_le {limit : Nat} {text : String}
    (h : (encodeUtf8 text.toList).length ≤ limit) : excerpt limit text = text :=
  if_neg (Nat.not_lt_of_le h)

theorem excerpt_of_cut {limit : Nat} {text : String} {before after : List Char} {c : Char}
    (htext : text.toList = before ++ c :: after) (hbefore : (encodeUtf8 before).length ≤ limit)
    (hc : limit < (encodeUtf8 (before ++ [c])).length) :
    excerpt limit text = String.ofList before := by
  have hlarge : limit < (encodeUtf8 text.toList).length := by
    refine Nat.lt_of_lt_of_le hc (length_encodeUtf8_le ⟨after, ?_⟩)
    rw [htext, List.append_assoc, List.singleton_append]
  have hcut : excerpt limit text =
      String.ofList (decodeTolerantly ((encodeUtf8 text.toList).take limit)) := if_pos hlarge
  rw [hcut, htext, decodeTolerantly_take hbefore hc]

/-- What is kept of a text is its longest beginning that fits. A text that fits is kept as it
is, and of any other the characters in front of the cut are, all of them. -/
theorem excerpt_longest (limit : Nat) (text : String) :
    let kept := (excerpt limit text).toList
    kept <+: text.toList ∧ (encodeUtf8 kept).length ≤ limit ∧
      (∀ longer, longer <+: text.toList → kept.length < longer.length →
        limit < (encodeUtf8 longer).length) ∧
      (excerpt limit text = text ↔ (encodeUtf8 text.toList).length ≤ limit) ∧
      ∀ before c after, text.toList = before ++ c :: after →
        (encodeUtf8 before).length ≤ limit → limit < (encodeUtf8 (before ++ [c])).length →
        excerpt limit text = String.ofList before := by
  intro kept
  have hcuts : ∀ before c after, text.toList = before ++ c :: after →
      (encodeUtf8 before).length ≤ limit → limit < (encodeUtf8 (before ++ [c])).length →
      excerpt limit text = String.ofList before :=
    fun _ _ _ => excerpt_of_cut
  by_cases hfits : (encodeUtf8 text.toList).length ≤ limit
  · have hkept : kept = text.toList := congrArg String.toList (excerpt_of_le hfits)
    rw [hkept]
    refine ⟨List.prefix_refl _, hfits, ?_, ⟨fun _ => hfits, excerpt_of_le⟩, hcuts⟩
    intro longer hlonger hlength
    exact absurd hlonger.length_le (Nat.not_le_of_lt hlength)
  · obtain ⟨before, c, after, htext, hbefore, hc⟩ := exists_cut (Nat.lt_of_not_le hfits)
    have hkept : kept = before := by
      change (excerpt limit text).toList = before
      rw [hcuts before c after htext hbefore hc, String.toList_ofList]
    have hwhole : text.toList = (before ++ [c]) ++ after := by simpa using htext
    refine ⟨?_, by rwa [hkept], ?_, ?_, hcuts⟩
    · rw [hkept, htext]
      exact List.prefix_append _ _
    · intro longer hlonger hlength
      rw [hkept] at hlength
      -- a longer beginning has the character that the cut goes through
      have hc' : before ++ [c] <+: longer := by
        refine List.prefix_of_prefix_length_le ⟨after, hwhole.symm⟩ hlonger ?_
        rw [List.length_append, List.length_singleton]
        exact hlength
      exact Nat.lt_of_lt_of_le hc (length_encodeUtf8_le hc')
    · refine ⟨fun hsame => ?_, fun h => absurd h hfits⟩
      have hall : kept = text.toList := congrArg String.toList hsame
      rwa [← hall, hkept]

/-- Two bytes end inside of the second character, and four are enough for all three. -/
theorem excerpt_longest_insideCharacter :
    (encodeUtf8 ['a', '\u00e9']).length = 3 ∧ excerpt 2 "a\u00e9b" = "a" ∧
      excerpt 4 "a\u00e9b" = "a\u00e9b" := by
  obtain ⟨-, -, -, -, hcut⟩ := excerpt_longest 2 "a\u00e9b"
  obtain ⟨-, -, -, hwhole, -⟩ := excerpt_longest 4 "a\u00e9b"
  exact ⟨by decide, hcut ['a'] '\u00e9' ['b'] (by decide) (by decide) (by decide),
    hwhole.mpr (by decide)⟩

end CommandLine

end QueryOutline
