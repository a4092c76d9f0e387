import QueryOutline.Token

/-!
Grammar rules. A rule reads tokens from the front of a list and never fails: it
answers with what it found, together with the tokens it left. That these are an
end part of the list it was given is part of a rule, so that repetition
terminates and no token is read twice.
-/

namespace QueryOutline

structure Parsed (α : Type) where
  result : α
  rest : List Token
  deriving DecidableEq, Repr

structure Rule (α : Type) where
  read : List Token → Parsed α
  rest_suffix : ∀ ts, (read ts).rest <:+ ts

namespace Rule

variable {α β : Type}

instance : Monad Rule where
  pure a := ⟨fun ts => ⟨a, ts⟩, fun ts => List.suffix_refl ts⟩
  bind x f :=
    ⟨fun ts => (f (x.read ts).result).read (x.read ts).rest, fun ts =>
      ((f (x.read ts).result).rest_suffix _).trans (x.rest_suffix ts)⟩

@[simp] theorem read_pure (a : α) (ts : List Token) :
    (pure a : Rule α).read ts = ⟨a, ts⟩ := rfl

@[simp] theorem read_bind (x : Rule α) (f : α → Rule β) (ts : List Token) :
    (x >>= f).read ts = (f (x.read ts).result).read (x.read ts).rest := rfl

@[simp] theorem read_map (f : α → β) (x : Rule α) (ts : List Token) :
    (f <$> x).read ts = ⟨f (x.read ts).result, (x.read ts).rest⟩ := rfl

/-- A rule takes tokens and puts none back. -/
theorem length_rest_le (r : Rule α) (ts : List Token) :
    (r.read ts).rest.length ≤ ts.length :=
  (r.rest_suffix ts).length_le

/-- The current token, left in place. -/
def peek : Rule (Option Token) :=
  ⟨fun ts => ⟨ts.head?, ts⟩, fun ts => List.suffix_refl ts⟩

/-- The current token, taken if there is one. -/
def take : Rule (Option Token) :=
  ⟨fun ts => ⟨ts.head?, ts.tail⟩, fun ts => ts.tail_suffix⟩

@[simp] theorem read_peek (ts : List Token) : peek.read ts = ⟨ts.head?, ts⟩ := rfl

@[simp] theorem read_take (ts : List Token) : take.read ts = ⟨ts.head?, ts.tail⟩ := rfl

def isAt (t : Token) : Rule Bool := do
  return (← peek) == some t

@[simp] theorem read_isAt (t : Token) (ts : List Token) :
    (isAt t).read ts = ⟨ts.head? == some t, ts⟩ := rfl

/-- Step over the token if it is the current one, and say whether it was. -/
def skip (t : Token) : Rule Bool := do
  if ← isAt t then
    let _ ← take
    return true
  else return false

@[simp] theorem read_skip_cons_self (t : Token) (ts : List Token) :
    (skip t).read (t :: ts) = ⟨true, ts⟩ := by
  simp [skip]

theorem read_skip_of_ne {t : Token} {ts : List Token} (h : ts.head? ≠ some t) :
    (skip t).read ts = ⟨false, ts⟩ := by
  simp [skip, h]

def takeUntil (p : Token → Bool) : Rule (List Token) :=
  ⟨fun ts => ⟨ts.takeWhile (!p ·), ts.dropWhile (!p ·)⟩, fun ts => ts.dropWhile_suffix _⟩

/-- Items up to the closing token, which is taken, or up to the end. The first
token of every item is taken before its rule reads the others; an item may come
to nothing. -/
def readUntil (closing : Token) (item : Token → Rule (Option α)) :
    List Token → Parsed (List α)
  | [] => ⟨[], []⟩
  | t :: ts =>
      if t = closing then ⟨[], ts⟩
      else
        let found := (item t).read ts
        let others := readUntil closing item found.rest
        ⟨found.result.toList ++ others.result, others.rest⟩
termination_by ts => ts.length
decreasing_by exact Nat.lt_succ_of_le ((item t).length_rest_le ts)

theorem readUntil_suffix (closing : Token) (item : Token → Rule (Option α))
    (ts : List Token) : (readUntil closing item ts).rest <:+ ts := by
  fun_induction readUntil closing item ts with
  | case1 => exact List.suffix_refl _
  | case2 ts => exact List.suffix_cons _ _
  | case3 t ts _ found others ih =>
      exact (ih.trans ((item t).rest_suffix ts)).trans (List.suffix_cons _ _)

def manyUntil (closing : Token) (item : Token → Rule (Option α)) : Rule (List α) :=
  ⟨readUntil closing item, readUntil_suffix closing item⟩

@[simp] theorem read_manyUntil (closing : Token) (item : Token → Rule (Option α))
    (ts : List Token) : (manyUntil closing item).read ts = readUntil closing item ts := rfl

/-- The closing token is taken and gives no item. -/
theorem readUntil_closing (closing : Token) (item : Token → Rule (Option α))
    (ts : List Token) : readUntil closing item (closing :: ts) = ⟨[], ts⟩ := by
  simp [readUntil]

/-- An item that is read comes before what is read behind it. -/
theorem readUntil_cons {closing t : Token} {item : Token → Rule (Option α)}
    {ts rest : List Token} {a : α} (ht : t ≠ closing)
    (h : (item t).read ts = ⟨some a, rest⟩) :
    readUntil closing item (t :: ts) =
      ⟨a :: (readUntil closing item rest).result, (readUntil closing item rest).rest⟩ := by
  rw [readUntil, if_neg ht, h]
  simp

/-- Items as long as each is announced by the marker. -/
def readMarked (marker : Token) (item : Rule α) : List Token → Parsed (List α)
  | [] => ⟨[], []⟩
  | t :: ts =>
      if t = marker then
        let found := item.read ts
        let others := readMarked marker item found.rest
        ⟨found.result :: others.result, others.rest⟩
      else ⟨[], t :: ts⟩
termination_by ts => ts.length
decreasing_by exact Nat.lt_succ_of_le (item.length_rest_le ts)

theorem readMarked_suffix (marker : Token) (item : Rule α) (ts : List Token) :
    (readMarked marker item ts).rest <:+ ts := by
  fun_induction readMarked marker item ts with
  | case1 => exact List.suffix_refl _
  | case2 ts found others ih =>
      exact (ih.trans (item.rest_suffix ts)).trans (List.suffix_cons _ _)
  | case3 => exact List.suffix_refl _

def manyMarked (marker : Token) (item : Rule α) : Rule (List α) :=
  ⟨readMarked marker item, readMarked_suffix marker item⟩

@[simp] theorem read_manyMarked (marker : Token) (item : Rule α) (ts : List Token) :
    (manyMarked marker item).read ts = readMarked marker item ts := rfl

theorem readMarked_of_ne {marker : Token} {item : Rule α} {ts : List Token}
    (h : ts.head? ≠ some marker) : readMarked marker item ts = ⟨[], ts⟩ := by
  cases ts with
  | nil => simp [readMarked]
  | cons t ts =>
      have ht : t ≠ marker := by simpa using h
      rw [readMarked, if_neg ht]

end Rule

end QueryOutline
