import Mathlib.Data.List.Basic
import Mathlib.Data.List.TakeWhile
import Mathlib.Data.Nat.Digits.Defs
import QueryOutline.Text.Integer

/-!
What writes an integer. A decimal integer is read from a text just in case the text is an
optional sign and digits, of any script and at most so many of them, with single underscores
between digits and blanks around the whole; its value is that of the digits in base ten. The
characters of these kinds are told apart before digits of other scripts are replaced, so that
the replacement is of no consequence.
-/

namespace QueryOutline.Text

/-- Digits with their values, the first one first. An underscore may stand between two of
them. -/
inductive WritesDigits : List Char → List Nat → Prop
  | last {c : Char} {d : Nat} (first : digitValue? c = some d) : WritesDigits [c] [d]
  | next {c : Char} {d : Nat} {cs : List Char} {ds : List Nat} (first : digitValue? c = some d)
      (rest : WritesDigits cs ds) : WritesDigits (c :: cs) (d :: ds)
  | apart {c : Char} {d : Nat} {cs : List Char} {ds : List Nat} (first : digitValue? c = some d)
      (rest : WritesDigits cs ds) : WritesDigits (c :: '_' :: cs) (d :: ds)

/-- A sign, and whether it is a minus. -/
inductive WritesSign : List Char → Bool → Prop
  | none : WritesSign [] false
  | plus : WritesSign ['+'] false
  | minus : WritesSign ['-'] true

/-- Characters that write an integer. -/
inductive WritesInteger : List Char → Int → Prop
  | intro {before sign numeral after : List Char} {negative : Bool} {ds : List Nat}
      (hbefore : ∀ c ∈ before, isIntegerBlank c = true) (hsign : WritesSign sign negative)
      (hdigits : WritesDigits numeral ds) (hlength : ds.length ≤ maxIntegerDigits)
      (hafter : ∀ c ∈ after, isIntegerBlank c = true) :
      WritesInteger (before ++ sign ++ numeral ++ after)
        (applySign negative (Nat.ofDigits 10 ds.reverse))

/-! Kinds of characters. -/

theorem digitChar_kind : ∀ d < 10,
    hexValue? d.digitChar = some d ∧ isIntegerBlank d.digitChar = false := by
  decide

theorem plainDigit_of_some {c : Char} {d : Nat} (h : digitValue? c = some d) :
    plainDigit c = d.digitChar := by
  have hplain : ∀ d < 10, Char.ofNat (0x30 + d) = d.digitChar := by decide
  simp only [plainDigit, h]
  exact hplain d (digitValue?_lt h)

theorem plainDigit_of_none {c : Char} (h : digitValue? c = none) : plainDigit c = c := by
  simp only [plainDigit, h]

theorem digitValue?_digitChar : ∀ d < 10, digitValue? d.digitChar = some d := by
  decide

theorem digitValue?_mark {c : Char} (h : c = '_' ∨ c = '-' ∨ c = '+') :
    digitValue? c = none := by
  rcases h with rfl | rfl | rfl <;> decide

/-- Of the hexadecimal digits those below ten are decimal digits. -/
theorem digitValue?_of_hexValue? {c : Char} {d : Nat} (h : hexValue? c = some d) (hd : d < 10) :
    digitValue? c = some d := by
  have hc : c.toNat = 48 + d := by
    simp only [hexValue?, Bool.and_eq_true, decide_eq_true_eq, Char.le_def,
      UInt32.le_iff_toNat_le] at h
    change (if 48 ≤ c.toNat ∧ c.toNat ≤ 57 then _ else if 97 ≤ c.toNat ∧ c.toNat ≤ 102 then _
      else if 65 ≤ c.toNat ∧ c.toNat ≤ 70 then _ else _) = _ at h
    split_ifs at h <;> simp only [Option.some.injEq] at h <;> omega
  have hchar : c = d.digitChar := by
    rw [← Char.toNat_inj, hc, Nat.toNat_digitChar_of_lt_ten hd]
  rw [hchar, digitValue?_digitChar d hd]

theorem isIntegerBlank_digit : ∀ first ∈ digitZeros, ∀ d < 10,
    isIntegerBlank (Char.ofNat (first + d)) = false := by
  decide +kernel

/-- No decimal digit of any script is blank. -/
theorem digitValue?_of_isIntegerBlank {c : Char} (h : isIntegerBlank c = true) :
    digitValue? c = none := by
  cases hdigit : digitValue? c with
  | none => rfl
  | some d =>
      simp only [digitValue?, Option.map_eq_some_iff] at hdigit
      obtain ⟨first, found, rfl⟩ := hdigit
      have hrange := List.find?_some found
      simp only [Bool.and_eq_true, decide_eq_true_eq] at hrange
      have hblank := isIntegerBlank_digit first (List.mem_of_find?_eq_some found)
        (c.toNat - first) (by omega)
      rw [Nat.add_sub_cancel' hrange.1, Char.ofNat_toNat, h] at hblank
      contradiction

def inNumeral (c : Char) : Bool :=
  c == '_' || (digitValue? c).isSome

/-- The kinds of a character and of its plain form are the same. -/
theorem plainDigit_eq_iff {c x : Char} (hx : digitValue? x = none) : plainDigit c = x ↔ c = x := by
  cases h : digitValue? c with
  | none => rw [plainDigit_of_none h]
  | some d =>
      have hd := digitValue?_lt h
      rw [plainDigit_of_some h]
      constructor
      · rintro rfl
        rw [digitValue?_digitChar d hd] at hx
        contradiction
      · rintro rfl
        rw [h] at hx
        contradiction

theorem isIntegerBlank_plainDigit (c : Char) :
    isIntegerBlank (plainDigit c) = isIntegerBlank c := by
  cases h : digitValue? c with
  | none => rw [plainDigit_of_none h]
  | some d =>
      rw [plainDigit_of_some h, (digitChar_kind d (digitValue?_lt h)).2]
      cases hblank : isIntegerBlank c with
      | false => rfl
      | true =>
          rw [digitValue?_of_isIntegerBlank hblank] at h
          contradiction

/-- A decimal digit of any script has its value as a digit of ASCII. -/
theorem hexValue?_plainDigit (c : Char) (h : inNumeral c = true) :
    hexValue? (plainDigit c) = digitValue? c := by
  cases hdigit : digitValue? c with
  | none =>
      obtain rfl : c = '_' := by simpa [inNumeral, hdigit] using h
      rfl
  | some d => rw [plainDigit_of_some hdigit, (digitChar_kind d (digitValue?_lt hdigit)).1]

theorem any_hexValue?_plainDigit (c : Char) :
    (plainDigit c == '_' || (hexValue? (plainDigit c)).any (· < 10)) = inNumeral c := by
  cases hdigit : digitValue? c with
  | none =>
      have hnone : (hexValue? c).any (· < 10) = false := by
        cases hhex : hexValue? c with
        | none => rfl
        | some d =>
            have hge : ¬ d < 10 := by
              intro hd
              rw [digitValue?_of_hexValue? hhex hd] at hdigit
              contradiction
            simpa using hge
      simp [plainDigit_of_none hdigit, inNumeral, hdigit, hnone]
  | some d =>
      have hkind := digitChar_kind d (digitValue?_lt hdigit)
      simp [plainDigit_of_some hdigit, hkind.1, inNumeral, hdigit, digitValue?_lt hdigit]

/-! The reader without plain forms. -/

theorem splitSign_of_ne {c : Char} (cs : List Char) (hminus : c ≠ '-') (hplus : c ≠ '+') :
    splitSign (c :: cs) = (false, c :: cs) := by
  simp [splitSign, hminus, hplus]

/-- Signs are the same in all scripts. -/
theorem splitSign_map_plainDigit (cs : List Char) :
    splitSign (cs.map plainDigit) = ((splitSign cs).1, (splitSign cs).2.map plainDigit) := by
  cases cs with
  | nil => rfl
  | cons c cs =>
      have hminus : plainDigit c = '-' ↔ c = '-' := plainDigit_eq_iff (digitValue?_mark (by simp))
      have hplus : plainDigit c = '+' ↔ c = '+' := plainDigit_eq_iff (digitValue?_mark (by simp))
      by_cases hm : c = '-'
      · rw [hm]
        rfl
      · by_cases hp : c = '+'
        · rw [hp]
          rfl
        · rw [splitSign_of_ne cs hm hp, List.map_cons,
            splitSign_of_ne _ (mt hminus.mp hm) (mt hplus.mp hp)]

theorem underscoresSeparate_map_plainDigit (cs : List Char) :
    underscoresSeparate (cs.map plainDigit) = underscoresSeparate cs := by
  have hunderscore (c : Char) : plainDigit c = '_' ↔ c = '_' :=
    plainDigit_eq_iff (digitValue?_mark (by simp))
  have hne (c : Char) : (plainDigit c != '_') = (c != '_') := by
    rw [Bool.eq_iff_iff, bne_iff_ne, bne_iff_ne]
    exact not_congr (hunderscore c)
  fun_induction underscoresSeparate cs with
  | case1 => rfl
  | case2 c => exact hne c
  | case3 c next rest ihrest ihnext =>
      rw [List.map_cons] at ihnext
      rw [List.map_cons, List.map_cons, underscoresSeparate, ihrest, ihnext, hne]
      simp only [hunderscore]

theorem readInteger_ofList (cs : List Char) :
    readInteger (String.ofList cs) =
      let body := (splitSign (cs.dropWhile isIntegerBlank)).2
      let numeral := body.takeWhile inNumeral
      let digits := numeral.filterMap digitValue?
      if !underscoresSeparate numeral then .error .malformed
      else if maxIntegerDigits < digits.length then .error (.tooManyDigits digits.length)
      else if !(body.dropWhile inNumeral).all isIntegerBlank then .error .malformed
      else .ok (applySign (splitSign (cs.dropWhile isIntegerBlank)).1 (ofDigits digits)) := by
  have hmark (ds : List Char) : withoutMark 10 ds = ds := by
    unfold withoutMark
    split
    · rfl
    · rfl
  have hnumeral : (fun c => c == '_' || (hexValue? c).any (· < 10)) ∘ plainDigit = inNumeral :=
    funext any_hexValue?_plainDigit
  have hdigits (ds : List Char) :
      ((ds.takeWhile inNumeral).map plainDigit).filterMap hexValue? =
        (ds.takeWhile inNumeral).filterMap digitValue? := by
    rw [List.filterMap_map]
    apply List.filterMap_congr
    intro c hc
    exact hexValue?_plainDigit c (List.mem_takeWhile_imp hc)
  have hafter (ds : List Char) :
      (ds.map plainDigit).all isIntegerBlank = ds.all isIntegerBlank := by
    rw [List.all_map]
    exact congrArg ds.all (funext isIntegerBlank_plainDigit)
  simp only [readInteger, readInBase, String.toList_ofList, splitSign_map_plainDigit, hmark,
    List.takeWhile_map, List.dropWhile_map, hnumeral, hdigits, hafter,
    underscoresSeparate_map_plainDigit, decide_true, Bool.true_and, decide_eq_true_eq, ofDigits]

theorem readInteger_ofList_eq_ok_iff {cs body : List Char} {negative : Bool} {n : Int}
    (hsign : splitSign (cs.dropWhile isIntegerBlank) = (negative, body)) :
    readInteger (String.ofList cs) = .ok n ↔
      underscoresSeparate (body.takeWhile inNumeral) = true ∧
        ((body.takeWhile inNumeral).filterMap digitValue?).length ≤ maxIntegerDigits ∧
        (∀ c ∈ body.dropWhile inNumeral, isIntegerBlank c = true) ∧
        n = applySign negative (ofDigits ((body.takeWhile inNumeral).filterMap digitValue?)) := by
  rw [readInteger_ofList, hsign]
  simp only [Bool.not_eq_true', ← List.all_eq_true]
  split_ifs with hseparate hlength hafter
  · simp [hseparate]
  · simp [Nat.not_le_of_lt hlength]
  · simp [hafter]
  · simp only [Bool.not_eq_false, Nat.not_lt] at hseparate hlength hafter
    simp only [hseparate, hlength, hafter, true_and, Except.ok.injEq]
    exact eq_comm

/-! What is read is written, and the other way round. -/

theorem WritesDigits.exists_cons {cs : List Char} {ds : List Nat} (h : WritesDigits cs ds) :
    ∃ c rest, cs = c :: rest ∧ (digitValue? c).isSome = true := by
  cases h with
  | last first | next first _ | apart first _ => exact ⟨_, _, rfl, Option.isSome_of_eq_some first⟩

theorem underscoresSeparate_cons {cs : List Char} (c : Char)
    (h : underscoresSeparate cs = true) : underscoresSeparate (c :: cs) = (c != '_') := by
  cases cs with
  | nil => contradiction
  | cons next rest =>
      have hnext : next ≠ '_' := by
        rintro rfl
        cases rest <;> simp [underscoresSeparate] at h
      rw [underscoresSeparate, if_neg hnext, h, Bool.and_true]

/-- Digits of the grammar have single underscores, and only between two of them. -/
theorem WritesDigits.spelled {cs : List Char} {ds : List Nat} (h : WritesDigits cs ds) :
    (∀ c ∈ cs, inNumeral c = true) ∧ underscoresSeparate cs = true ∧
      cs.filterMap digitValue? = ds := by
  have hne {c : Char} {d : Nat} (first : digitValue? c = some d) : (c != '_') = true := by
    rw [bne_iff_ne]
    rintro rfl
    rw [digitValue?_mark (by simp)] at first
    contradiction
  have hin {c : Char} {d : Nat} (first : digitValue? c = some d) : inNumeral c = true := by
    simp [inNumeral, first]
  induction h with
  | last first => exact ⟨by simp [hin first], hne first, by simp [first]⟩
  | next first _ ih =>
      obtain ⟨hkind, hseparate, hvalues⟩ := ih
      refine ⟨by simpa [hin first] using hkind, ?_, by simp [first, hvalues]⟩
      rw [underscoresSeparate_cons _ hseparate, hne first]
  | apart first _ ih =>
      obtain ⟨hkind, hseparate, hvalues⟩ := ih
      have hunderscore : inNumeral '_' = true := rfl
      have hnone : digitValue? '_' = none := digitValue?_mark (by simp)
      refine ⟨by simpa [hin first, hunderscore] using hkind, ?_,
        by simp [first, hnone, hvalues]⟩
      rw [underscoresSeparate, hne first, if_pos rfl, hseparate, Bool.and_true]

theorem writesDigits_of_spelled {cs : List Char} (hkind : ∀ c ∈ cs, inNumeral c = true)
    (h : underscoresSeparate cs = true) : WritesDigits cs (cs.filterMap digitValue?) := by
  have hvalue {c : Char} (hc : inNumeral c = true) (hne : (c != '_') = true) :
      ∃ d, digitValue? c = some d := by
    rw [bne_iff_ne] at hne
    simpa [inNumeral, hne, Option.isSome_iff_exists] using hc
  fun_induction underscoresSeparate cs with
  | case1 => cases h
  | case2 c =>
      obtain ⟨d, hd⟩ := hvalue (hkind c (by simp)) h
      simpa [hd] using WritesDigits.last hd
  | case3 c next rest ihrest ihnext =>
      rw [Bool.and_eq_true] at h
      obtain ⟨d, hd⟩ := hvalue (hkind c (by simp)) h.1
      by_cases hnext : next = '_'
      · rw [if_pos hnext] at h
        have hrest := ihrest (fun c hc => hkind c (by simp [hc])) h.2
        have hnone : digitValue? '_' = none := digitValue?_mark (by simp)
        simpa [hd, hnext, hnone] using WritesDigits.apart hd hrest
      · rw [if_neg hnext] at h
        have hrest := ihnext (fun c hc => hkind c (List.mem_cons_of_mem _ hc)) h.2
        simpa [hd] using WritesDigits.next hd hrest

theorem ofDigits_eq (ds : List Nat) : ofDigits ds = Nat.ofDigits 10 ds.reverse := by
  rw [Nat.ofDigits_eq_foldr, List.foldr_reverse, ofDigits, ofDigitsIn]
  simp only [Nat.cast_id, Nat.add_comm]

theorem exists_writesSign (cs : List Char) :
    ∃ sign, WritesSign sign (splitSign cs).1 ∧ cs = sign ++ (splitSign cs).2 := by
  unfold splitSign
  split
  · exact ⟨_, .minus, rfl⟩
  · exact ⟨_, .plus, rfl⟩
  · exact ⟨_, .none, rfl⟩

theorem dropWhile_sign {sign rest : List Char} {negative : Bool} {c : Char}
    (hsign : WritesSign sign negative) (hc : (digitValue? c).isSome = true) :
    (sign ++ c :: rest).dropWhile isIntegerBlank = sign ++ c :: rest := by
  cases hsign with
  | none =>
      apply List.dropWhile_cons_of_neg
      intro hblank
      rw [digitValue?_of_isIntegerBlank hblank] at hc
      contradiction
  | plus | minus => exact List.dropWhile_cons_of_neg (by decide)

theorem splitSign_sign {sign rest : List Char} {negative : Bool} {c : Char}
    (hsign : WritesSign sign negative) (hc : (digitValue? c).isSome = true) :
    splitSign (sign ++ c :: rest) = (negative, c :: rest) := by
  cases hsign with
  | none =>
      apply splitSign_of_ne
      · rintro rfl
        rw [digitValue?_mark (by simp)] at hc
        contradiction
      · rintro rfl
        rw [digitValue?_mark (by simp)] at hc
        contradiction
  | plus | minus => rfl

/-- What stands behind a numeral does not go on with it. -/
theorem takeWhile_dropWhile_numeral {numeral after : List Char}
    (hnumeral : ∀ c ∈ numeral, inNumeral c = true)
    (hafter : ∀ c ∈ after, isIntegerBlank c = true) :
    (numeral ++ after).takeWhile inNumeral = numeral ∧
      (numeral ++ after).dropWhile inNumeral = after := by
  have hblank {c : Char} (hc : isIntegerBlank c = true) : inNumeral c = false := by
    have hne : c ≠ '_' := by
      rintro rfl
      contradiction
    simp [inNumeral, hne, digitValue?_of_isIntegerBlank hc]
  rw [List.takeWhile_append_of_pos hnumeral, List.dropWhile_append_of_pos hnumeral]
  cases after with
  | nil => simp
  | cons c rest => simp [hblank (hafter c (by simp))]

theorem writesInteger_of_read {cs : List Char} {n : Int}
    (h : readInteger (String.ofList cs) = .ok n) : WritesInteger cs n := by
  obtain ⟨sign, hsign, hbody⟩ := exists_writesSign (cs.dropWhile isIntegerBlank)
  cases hsplit : splitSign (cs.dropWhile isIntegerBlank) with
  | mk negative body =>
      simp only [hsplit] at hsign hbody
      obtain ⟨hseparate, hlength, hafter, rfl⟩ := (readInteger_ofList_eq_ok_iff hsplit).mp h
      have hbefore : ∀ c ∈ cs.takeWhile isIntegerBlank, isIntegerBlank c = true :=
        fun _ hc => List.mem_takeWhile_imp hc
      have hdigits := writesDigits_of_spelled (fun _ hc => List.mem_takeWhile_imp hc) hseparate
      have hwrites := WritesInteger.intro hbefore hsign hdigits hlength hafter
      rwa [List.append_assoc, List.takeWhile_append_dropWhile, List.append_assoc, ← hbody,
        List.takeWhile_append_dropWhile, ← ofDigits_eq] at hwrites

theorem readInteger_of_writes {cs : List Char} {n : Int} (h : WritesInteger cs n) :
    readInteger (String.ofList cs) = .ok n := by
  cases h with
  | @intro before sign numeral after negative ds hbefore hsign hdigits hlength hafter =>
      obtain ⟨c, rest, hcons, hc⟩ := hdigits.exists_cons
      obtain ⟨hkind, hseparate, rfl⟩ := hdigits.spelled
      obtain ⟨htake, hdrop⟩ := takeWhile_dropWhile_numeral hkind hafter
      have hsplit : splitSign ((before ++ sign ++ numeral ++ after).dropWhile isIntegerBlank) =
          (negative, numeral ++ after) := by
        rw [List.append_assoc, List.append_assoc, List.dropWhile_append_of_pos hbefore, hcons,
          List.cons_append, dropWhile_sign hsign hc, splitSign_sign hsign hc]
      rw [readInteger_ofList_eq_ok_iff hsplit, htake, hdrop, ofDigits_eq]
      exact ⟨hseparate, hlength, hafter, rfl⟩

/-- An integer is read just from the texts that the grammar writes for it. -/
theorem readInteger_eq_ok_iff (cs : List Char) (n : Int) :
    readInteger (String.ofList cs) = .ok n ↔ WritesInteger cs n :=
  ⟨writesInteger_of_read, readInteger_of_writes⟩

/-! Decimal forms. -/

/-- Digits need no underscores between them. -/
theorem writesDigits_of_isDigit {cs : List Char} (hne : cs ≠ [])
    (h : ∀ c ∈ cs, c.isDigit = true) : WritesDigits cs (cs.map fun c => c.toNat - 48) := by
  have hvalue {c : Char} (hc : c.isDigit = true) : digitValue? c = some (c.toNat - 48) := by
    simp only [Char.isDigit, Bool.and_eq_true, decide_eq_true_eq, ge_iff_le,
      UInt32.le_iff_toNat_le] at hc
    change 48 ≤ c.toNat ∧ c.toNat ≤ 57 at hc
    have hchar : c = (c.toNat - 48).digitChar := by
      rw [← Char.toNat_inj, Nat.toNat_digitChar_of_lt_ten (by omega)]
      omega
    have hdigit := digitValue?_digitChar (c.toNat - 48) (by omega)
    rwa [← hchar] at hdigit
  induction cs with
  | nil => exact absurd rfl hne
  | cons c cs ih =>
      have hfirst := hvalue (h c (by simp))
      by_cases hcs : cs = []
      · rw [hcs]
        exact .last hfirst
      · exact .next hfirst (ih hcs fun c hc => h c (List.mem_cons_of_mem _ hc))

/-- A decimal form writes its number, unless it is too long, and no other one. -/
theorem writesInteger_toString_iff {n : Nat} {m : Int} :
    WritesInteger (toString n).toList m ↔ (toString n).length ≤ maxIntegerDigits ∧ m = n := by
  have hlist : (toString n).toList = Nat.toDigits 10 n := Nat.toList_repr
  rw [← String.length_toList, hlist]
  have hdecimal : ∀ c ∈ Nat.toDigits 10 n, c.isDigit = true :=
    fun _ hc => Nat.isDigit_of_mem_toDigits (by decide) (by decide) hc
  have hdigits := writesDigits_of_isDigit Nat.toDigits_ne_nil hdecimal
  have hvalue : ofDigits ((Nat.toDigits 10 n).map fun c => c.toNat - 48) = n := by
    rw [ofDigits, ofDigitsIn, List.foldl_map]
    exact Nat.ofDigitChars_eq_foldl.symm.trans Nat.ofDigitChars_ten_toDigits
  obtain ⟨c, rest, hcons, hc⟩ := hdigits.exists_cons
  obtain ⟨hkind, hseparate, hvalues⟩ := hdigits.spelled
  have hnone : ∀ c ∈ ([] : List Char), isIntegerBlank c = true := by simp
  obtain ⟨htake, hdrop⟩ := takeWhile_dropWhile_numeral hkind hnone
  rw [List.append_nil] at htake hdrop
  have hsplit : splitSign ((Nat.toDigits 10 n).dropWhile isIntegerBlank) =
      (false, Nat.toDigits 10 n) := by
    have hblank : (c :: rest).dropWhile isIntegerBlank = c :: rest := dropWhile_sign .none hc
    rw [hcons, hblank]
    exact splitSign_sign .none hc
  rw [← readInteger_eq_ok_iff, readInteger_ofList_eq_ok_iff hsplit, htake, hdrop, hvalues, hvalue,
    List.length_map]
  simp [hseparate, applySign]

end QueryOutline.Text
