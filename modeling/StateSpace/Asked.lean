/-!
# StateSpace.Asked

Answers that remember the questions asked for them.

* `Asked` — an answer, and the questions in the order in which they were asked;
* `Asked.andThen` — goes on with a result, unless there is none;
* `Asked.both`, `Asked.all`, `Asked.any` — the Boolean connectives, from left to right. They ask
  nothing more once their answer is known.
-/

namespace StateSpace

structure Asked (κ α : Type) where
  questions : List κ
  answer : α
deriving Repr

namespace Asked

variable {κ ε α β : Type}

def known (answer : α) : Asked κ α := ⟨[], answer⟩

def map (f : α → β) (x : Asked κ α) : Asked κ β := ⟨x.questions, f x.answer⟩

/-- Goes on with the result, if there is one. -/
def andThen (x : Asked κ (Except ε α)) (next : α → Asked κ (Except ε β)) :
    Asked κ (Except ε β) :=
  match x.answer with
  | .error e => ⟨x.questions, .error e⟩
  | .ok a => ⟨x.questions ++ (next a).questions, (next a).answer⟩

/-- Both answers are yes; the second is asked for only if the first one is. -/
def both (x y : Asked κ (Except ε Bool)) : Asked κ (Except ε Bool) :=
  x.andThen fun a => if a then y else known (.ok false)

def all (f : α → Asked κ (Except ε Bool)) : List α → Asked κ (Except ε Bool)
  | [] => known (.ok true)
  | a :: rest => (f a).andThen fun b => if b then all f rest else known (.ok false)

def any (f : α → Asked κ (Except ε Bool)) : List α → Asked κ (Except ε Bool)
  | [] => known (.ok false)
  | a :: rest => (f a).andThen fun b => if b then known (.ok true) else any f rest

/-- The same questions and answer, with another type of failures. -/
def mapError {δ : Type} (f : ε → δ) (x : Asked κ (Except ε α)) : Asked κ (Except δ α) :=
  x.map fun
    | .error e => .error (f e)
    | .ok a => .ok a

end Asked

end StateSpace
