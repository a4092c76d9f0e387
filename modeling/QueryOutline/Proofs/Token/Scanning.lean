import Mathlib.Data.List.Induction
import QueryOutline.Token

/-!
Scanning a text in parts. A scan drops separators and keeps every other character in its
place. It never looks back at the tokens it has finished, and outside of a literal only a
word can go on into what follows. So a text that ends outside of a literal gives its own
tokens in front of those of any text behind it, unless a word of the one runs on into a
word of the other.
-/

namespace QueryOutline

namespace Token

def isWordChar (c : Char) : Bool :=
  !isSeparator c && !isPunctuation c && !isQuote c

def startsWord (cs : List Char) : Bool :=
  cs.head?.any isWordChar

def endsWord (cs : List Char) : Bool :=
  cs.getLast?.any isWordChar

def scanChars (cs : List Char) : Scan :=
  cs.foldl Scan.step {}

theorem tokenize_eq (text : String) : tokenize text = (scanChars text.toList).tokens := rfl

theorem isQuote_iff {c : Char} : isQuote c = true ↔ c = '"' ∨ c = '\'' := by
  simp [isQuote]

theorem not_isSeparator_of_isQuote {c : Char} (h : isQuote c = true) : isSeparator c = false := by
  rcases isQuote_iff.mp h with rfl | rfl <;> decide

theorem not_isPunctuation_of_isQuote {c : Char} (h : isQuote c = true) :
    isPunctuation c = false := by
  rcases isQuote_iff.mp h with rfl | rfl <;> decide

theorem isPunctuation_iff {c : Char} : isPunctuation c = true ↔
    c ∈ ['{', '}', '(', ')', '[', ']', ':', '!', '$', '@'] := by
  simp [isPunctuation]

theorem not_isSeparator_of_isPunctuation {c : Char} (h : isPunctuation c = true) :
    isSeparator c = false := by
  have hall : (['{', '}', '(', ')', '[', ']', ':', '!', '$', '@'].all (!isSeparator ·)) = true := by
    decide
  simpa using List.all_eq_true.mp hall c (isPunctuation_iff.mp h)

theorem not_isQuote_of_isPunctuation {c : Char} (h : isPunctuation c = true) :
    isQuote c = false := by
  rw [← Bool.not_eq_true]
  intro hq
  rw [not_isPunctuation_of_isQuote hq] at h
  contradiction

theorem isWordChar_iff {c : Char} : isWordChar c = true ↔
    isSeparator c = false ∧ isPunctuation c = false ∧ isQuote c = false := by
  simp [isWordChar, and_assoc]

theorem isWordChar_eq_false_iff {c : Char} : isWordChar c = false ↔
    isQuote c = true ∨ isSeparator c = true ∨ isPunctuation c = true := by
  rw [isWordChar]
  cases isQuote c <;> cases isSeparator c <;> simp

/-- Every character is of one of four kinds. -/
theorem kind_of_char (c : Char) : isWordChar c = true ∨ isQuote c = true ∨
    isSeparator c = true ∨ isPunctuation c = true := by
  rw [← isWordChar_eq_false_iff]
  cases isWordChar c <;> simp

namespace Scan

/-- What one character does to a scan. -/
inductive Moves : Scan → Char → Scan → Prop where
  | word {older : List Token} {cs : List Char} {b : Bool} {c : Char} (hc : isWordChar c = true) :
      Moves ⟨older, cs, none, b⟩ c ⟨older, c :: cs, none, c == '\\'⟩
  | quote {older : List Token} {cs : List Char} {b : Bool} {c : Char} (hc : isQuote c = true) :
      Moves ⟨older, cs, none, b⟩ c
        ⟨(cut ⟨older, cs, none, b⟩).finished, [c], some c, c == '\\'⟩
  | separator {older : List Token} {cs : List Char} {b : Bool} {c : Char}
      (hc : isSeparator c = true) :
      Moves ⟨older, cs, none, b⟩ c
        ⟨(cut ⟨older, cs, none, b⟩).finished, [], none, c == '\\'⟩
  | punctuation {older : List Token} {cs : List Char} {b : Bool} {c : Char}
      (hc : isPunctuation c = true) :
      Moves ⟨older, cs, none, b⟩ c
        ⟨c.toString :: (cut ⟨older, cs, none, b⟩).finished, [], none, c == '\\'⟩
  | inside {older : List Token} {cs : List Char} {b : Bool} {c q : Char}
      (h : c = q → b = true) :
      Moves ⟨older, cs, some q, b⟩ c ⟨older, c :: cs, some q, c == '\\'⟩
  | closing {older : List Token} {cs : List Char} {q : Char} :
      Moves ⟨older, cs, some q, false⟩ q
        ⟨String.ofList (q :: cs).reverse :: older, [], none, q == '\\'⟩

variable {finished older : List Token} {pending : List Char} {delimiter : Option Char}
  {b : Bool} {c q : Char}

/-! What a cut leaves, and what each kind of character does. -/

@[simp] theorem pending_cut (s : Scan) : s.cut.pending = [] := by
  unfold cut
  split
  · next h => exact List.isEmpty_iff.mp h
  · rfl

@[simp] theorem delimiter_cut (s : Scan) : s.cut.delimiter = s.delimiter := by
  unfold cut
  split <;> rfl

theorem finished_cut (s : Scan) : s.cut.finished =
    if s.pending.isEmpty then s.finished
    else String.ofList s.pending.reverse :: s.finished := by
  unfold cut
  split <;> rfl

theorem step_quote (hc : isQuote c = true) :
    step ⟨finished, pending, none, b⟩ c =
      ⟨(cut ⟨finished, pending, none, b⟩).finished, [c], some c, c == '\\'⟩ := by
  simp [step, hc]

theorem step_separator (hc : isSeparator c = true) :
    step ⟨finished, pending, none, b⟩ c =
      ⟨(cut ⟨finished, pending, none, b⟩).finished, [], none, c == '\\'⟩ := by
  have hq : isQuote c = false := by
    rw [← Bool.not_eq_true]
    intro hq
    rw [not_isSeparator_of_isQuote hq] at hc
    contradiction
  simp [step, hc, hq]

theorem step_punctuation (hc : isPunctuation c = true) :
    step ⟨finished, pending, none, b⟩ c =
      ⟨c.toString :: (cut ⟨finished, pending, none, b⟩).finished, [], none, c == '\\'⟩ := by
  simp [step, hc, not_isQuote_of_isPunctuation hc, not_isSeparator_of_isPunctuation hc]

theorem step_wordChar (hc : isWordChar c = true) :
    step ⟨finished, pending, none, b⟩ c = ⟨finished, c :: pending, none, c == '\\'⟩ := by
  obtain ⟨hs, hp, hq⟩ := isWordChar_iff.mp hc
  simp [step, hs, hp, hq]

/-- In a literal every character is kept, the quote behind a backslash included. -/
theorem step_inside (h : c = q → b = true) :
    step ⟨finished, pending, some q, b⟩ c = ⟨finished, c :: pending, some q, c == '\\'⟩ := by
  have hc : (decide (c = q) && !b) = false := by
    cases b
    · simpa using h
    · simp
  simp [step, hc]

/-- The quote that has opened the literal closes it, unless a backslash is in front of it. -/
theorem step_closing :
    step ⟨finished, pending, some q, false⟩ q =
      ⟨String.ofList (q :: pending).reverse :: finished, [], none, q == '\\'⟩ := by
  simp [step, cut]

variable {s t : Scan}

theorem Moves.step_eq (h : Moves s c t) : s.step c = t := by
  cases h with
  | word hc => exact step_wordChar hc
  | quote hc => exact step_quote hc
  | separator hc => exact step_separator hc
  | punctuation hc => exact step_punctuation hc
  | inside h => exact step_inside h
  | closing => exact step_closing

theorem exists_moves (s : Scan) (c : Char) : ∃ t, Moves s c t := by
  obtain ⟨finished, pending, delimiter, b⟩ := s
  cases delimiter with
  | none =>
      rcases kind_of_char c with hc | hc | hc | hc
      · exact ⟨_, .word hc⟩
      · exact ⟨_, .quote hc⟩
      · exact ⟨_, .separator hc⟩
      · exact ⟨_, .punctuation hc⟩
  | some q =>
      by_cases h : c = q → b = true
      · exact ⟨_, .inside h⟩
      · simp only [Classical.not_imp, Bool.not_eq_true] at h
        obtain ⟨rfl, rfl⟩ := h
        exact ⟨_, .closing⟩

theorem moves_step (s : Scan) (c : Char) : Moves s c (s.step c) := by
  obtain ⟨t, h⟩ := s.exists_moves c
  rw [h.step_eq]
  exact h

/-! Older tokens. -/

def above (s : Scan) (older : List Token) : Scan :=
  { s with finished := s.finished ++ older }

theorem finished_cut_above (s : Scan) (older : List Token) :
    (s.above older).cut.finished = s.cut.finished ++ older := by
  rw [finished_cut, finished_cut]
  change (if s.pending.isEmpty then _ else _) = _
  split <;> rfl

/-- A scan does not look at the tokens it has finished. -/
theorem Moves.above (h : Moves s c t) (older : List Token) :
    Moves (s.above older) c (t.above older) := by
  have hcut := s.finished_cut_above older
  cases h with
  | word hc => exact .word hc
  | quote hc =>
      simp only [Scan.above] at hcut ⊢
      rw [← hcut]
      exact .quote hc
  | separator hc =>
      simp only [Scan.above] at hcut ⊢
      rw [← hcut]
      exact .separator hc
  | punctuation hc =>
      simp only [Scan.above, List.cons_append] at hcut ⊢
      rw [← hcut]
      exact .punctuation hc
  | inside h => exact .inside h
  | closing => exact .closing

theorem step_above (s : Scan) (older : List Token) (c : Char) :
    (s.above older).step c = (s.step c).above older :=
  ((s.moves_step c).above older).step_eq

theorem foldl_step_above (s : Scan) (older : List Token) (cs : List Char) :
    cs.foldl step (s.above older) = (cs.foldl step s).above older := by
  induction cs generalizing s with
  | nil => rfl
  | cons c cs ih => rw [List.foldl_cons, step_above, ih, List.foldl_cons]

theorem tokens_above (s : Scan) (older : List Token) :
    (s.above older).tokens = older.reverse ++ s.tokens := by
  rw [tokens, finished_cut_above, List.reverse_append, tokens]

/-- Outside of a literal a scan goes on like one from the start, unless there is a word
that goes on. -/
theorem step_eq_above (hd : s.delimiter = none) (h : s.pending = [] ∨ isWordChar c = false) :
    s.step c = (step {} c).above s.cut.finished := by
  have hm := s.moves_step c
  generalize s.step c = t at hm ⊢
  cases hm with
  | word hc =>
      obtain rfl := h.resolve_right (by simp [hc])
      rw [(Moves.word hc).step_eq]
      rfl
  | quote hc =>
      rw [(Moves.quote hc).step_eq]
      rfl
  | separator hc =>
      rw [(Moves.separator hc).step_eq]
      rfl
  | punctuation hc =>
      rw [(Moves.punctuation hc).step_eq]
      rfl
  | inside | closing => contradiction

/-- Outside of a literal only a word is pending. -/
theorem pending_step (hd : (s.step c).delimiter = none) (hc : isWordChar c = false) :
    (s.step c).pending = [] := by
  have hm := s.moves_step c
  generalize s.step c = t at hm hd ⊢
  cases hm with
  | word h =>
      rw [h] at hc
      contradiction
  | quote | inside => contradiction
  | separator | punctuation | closing => rfl

/-- What follows a text that ends outside of literals is scanned by itself, unless it goes on
with a pending word. -/
theorem foldl_step_of_outside {cs : List Char} (hd : s.delimiter = none)
    (h : s.pending = [] ∨ startsWord cs = false) :
    (cs.foldl step s).tokens = s.tokens ++ (scanChars cs).tokens ∧
      (cs.foldl step s).delimiter = (scanChars cs).delimiter := by
  cases cs with
  | nil => exact ⟨(List.append_nil _).symm, hd⟩
  | cons c cs =>
      have hs : s.step c = (step {} c).above s.cut.finished := step_eq_above hd h
      rw [scanChars, List.foldl_cons, List.foldl_cons, hs, foldl_step_above, tokens_above]
      exact ⟨rfl, rfl⟩

end Scan

/-! Texts that end outside of a literal. -/

open Scan

variable {cs ds : List Char} {ts us : List Token}

/-- The word that is pending at the end is the one the text ends in. -/
theorem pending_scanChars (hd : (scanChars cs).delimiter = none) (h : endsWord cs = false) :
    (scanChars cs).pending = [] := by
  rcases List.eq_nil_or_concat cs with rfl | ⟨cs, c, rfl⟩
  · rfl
  · have hc : isWordChar c = false := by simpa [endsWord] using h
    have hs : scanChars (cs.concat c) = (scanChars cs).step c := by simp [scanChars]
    rw [hs] at hd ⊢
    exact pending_step hd hc

/-- The characters give the tokens and end outside of a literal. -/
structure Spells (cs : List Char) (ts : List Token) : Prop where
  tokens : (scanChars cs).tokens = ts
  outside : (scanChars cs).delimiter = none

/-- No word runs on from the one text into the other. -/
def Apart (cs ds : List Char) : Prop :=
  endsWord cs = false ∨ startsWord ds = false

/-- Texts that are apart are scanned one by one. -/
theorem tokens_scanChars_append (h : Spells cs ts) (ha : Apart cs ds) :
    (scanChars (cs ++ ds)).tokens = ts ++ (scanChars ds).tokens ∧
      (scanChars (cs ++ ds)).delimiter = (scanChars ds).delimiter := by
  have hs : scanChars (cs ++ ds) = ds.foldl step (scanChars cs) := List.foldl_append
  rw [hs, ← h.tokens]
  exact foldl_step_of_outside h.outside (ha.imp_left (pending_scanChars h.outside))

theorem Spells.nil : Spells [] [] :=
  ⟨rfl, rfl⟩

theorem Spells.append (h : Spells cs ts) (h' : Spells ds us) (ha : Apart cs ds) :
    Spells (cs ++ ds) (ts ++ us) := by
  obtain ⟨ht, hd⟩ := tokens_scanChars_append h ha
  exact ⟨ht.trans (congrArg (ts ++ ·) h'.tokens), hd.trans h'.outside⟩

/-- A text over and over. -/
theorem Spells.replicate (h : Spells cs ts) (he : endsWord cs = false) (count : Nat) :
    Spells (List.replicate count cs).flatten (List.replicate count ts).flatten := by
  induction count with
  | zero => exact .nil
  | succ count ih => exact h.append ih (.inl he)

theorem tokenize_join_replicate {text : String} (h : Spells text.toList ts)
    (he : endsWord text.toList = false) (count : Nat) :
    tokenize (String.join (List.replicate count text)) = (List.replicate count ts).flatten := by
  have hchars : (String.join (List.replicate count text)).toList =
      (List.replicate count text.toList).flatten := by
    rw [String.toList_join, List.flatMap_replicate]
  rw [tokenize_eq, hchars]
  exact (h.replicate he count).tokens

/-! The characters that tokens are made of. -/

def Scan.kept (s : Scan) : List Char :=
  s.finished.reverse.flatMap String.toList ++ s.pending.reverse

theorem Scan.kept_cut (s : Scan) : s.cut.kept = s.kept := by
  by_cases hp : s.pending = []
  · simp [cut, hp]
  · simp [cut, kept, hp]

/-- A step keeps the character, or drops it if it is a separator. -/
theorem Scan.kept_step (s : Scan) (c : Char) : (s.step c).kept.Sublist (s.kept ++ [c]) := by
  have hcut := s.kept_cut
  have hm := s.moves_step c
  generalize s.step c = t at hm ⊢
  cases hm with
  | word | inside | closing => simp [kept]
  | quote | separator | punctuation =>
      rw [← hcut]
      simp [kept]

theorem kept_scanChars (cs : List Char) : (scanChars cs).kept.Sublist cs := by
  induction cs using List.reverseRecOn with
  | nil => exact List.Sublist.refl _
  | append_singleton cs c ih =>
      rw [scanChars, List.foldl_append]
      exact (Scan.kept_step _ c).trans (ih.append_right [c])

/-- Scanning drops characters and does nothing else to them. -/
theorem flatMap_toList_tokenize (text : String) :
    ((tokenize text).flatMap String.toList).Sublist text.toList := by
  have h := kept_scanChars text.toList
  rw [← Scan.kept_cut, Scan.kept, Scan.pending_cut, List.reverse_nil, List.append_nil] at h
  exact h

end Token

end QueryOutline
