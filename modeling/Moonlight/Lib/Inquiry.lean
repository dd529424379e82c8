import Mathlib.Logic.Basic

/-!
# Inquiries

A decision that is reached by asking questions one after the other, where each question may depend on the answers so
far. It is data: `result` and `asked` say what comes of it, and what was asked on the way, when the answers are those of
`answer`. Nothing else of the world can be seen in a decision made this way.

`Ensures` is the postcondition of an inquiry, of its result and of what was asked; the rules go through an inquiry
question by question.
-/

namespace Moonlight

inductive Inquiry (Q α : Type) where
  | done (a : α)
  | ask (q : Q) (next : Bool → Inquiry Q α)

namespace Inquiry

variable {Q α β : Type}

def bind : Inquiry Q α → (α → Inquiry Q β) → Inquiry Q β
  | done a, f => f a
  | ask q next, f => ask q fun b => (next b).bind f

instance : Monad (Inquiry Q) where
  pure := done
  bind := bind

/-- One question, and its answer. -/
def question (q : Q) : Inquiry Q Bool := ask q done

variable (answer : Q → Bool)

def result : Inquiry Q α → α
  | done a => a
  | ask q next => (next (answer q)).result

def asked : Inquiry Q α → List Q
  | done _ => []
  | ask q next => q :: (next (answer q)).asked

/-- The postcondition of an inquiry. -/
def Ensures (i : Inquiry Q α) (post : α → List Q → Prop) : Prop := post (i.result answer) (i.asked answer)

variable {answer}

theorem ensures_pure {a : α} {post : α → List Q → Prop} : Ensures answer (pure a) post ↔ post a [] := Iff.rfl

theorem ensures_question {q : Q} {f : Bool → Inquiry Q α} {post : α → List Q → Prop} :
    Ensures answer (question q >>= f) post ↔ Ensures answer (f (answer q)) fun a asked => post a (q :: asked) := Iff.rfl

theorem ensures_ite {c : Prop} [Decidable c] {i j : Inquiry Q α} {post : α → List Q → Prop}
    (hyes : c → Ensures answer i post) (hno : ¬ c → Ensures answer j post) :
    Ensures answer (if c then i else j) post := by
  by_cases h : c
  · rw [if_pos h]
    exact hyes h
  · rw [if_neg h]
    exact hno h

theorem Ensures.mono {i : Inquiry Q α} {post post' : α → List Q → Prop} (h : Ensures answer i post)
    (hpost : ∀ a asked, post a asked → post' a asked) : Ensures answer i post' :=
  hpost _ _ h

theorem ensures_map {i : Inquiry Q α} {f : α → β} {post : β → List Q → Prop} :
    Ensures answer (i >>= fun a => pure (f a)) post ↔ Ensures answer i fun a => post (f a) := by
  induction i generalizing post with
  | done a => exact Iff.rfl
  | ask q next ih => exact @ih (answer q) fun b asked => post b (q :: asked)

end Inquiry

end Moonlight
