import Mathlib.Data.List.Basic
/-!
# Framing a stream

A framer looks at the front of a buffer: an item stands there, or something that
never becomes one, or too little to tell. What it has told stays true when more
arrives, so the items of a stream do not depend on the pieces it comes in.
`Alike` compares two computations that may fail.
-/

namespace Lib

variable {α β γ δ ρ ε : Type}

/-! ## Framers -/

/-- What stands at the front of a buffer, and behind it. -/
inductive Front (α ρ ε : Type) where
  | item (r : ρ) (rest : List α)
  | bad (e : ε)
  | more

structure Framer (α ρ ε : Type) where
  front : List α → Front α ρ ε
  item_append : ∀ {bs : List α} {r : ρ} {rest : List α}, front bs = .item r rest →
    ∀ tail, front (bs ++ tail) = .item r (rest ++ tail)
  bad_append : ∀ {bs : List α} {e : ε}, front bs = .bad e → ∀ tail, front (bs ++ tail) = .bad e
  item_lt : ∀ {bs : List α} {r : ρ} {rest : List α}, front bs = .item r rest → rest.length < bs.length

namespace Framer
variable (F : Framer α ρ ε)

/-- All items of a buffer, what is left behind them, and what is wrong with it. -/
def split (bs : List α) : List ρ × List α × Option ε :=
  match _h : F.front bs with
  | .item r rest => (r :: (split rest).1, (split rest).2)
  | .bad e => ([], bs, some e)
  | .more => ([], bs, none)
termination_by bs.length
decreasing_by all_goals exact F.item_lt _h

variable {F} {bs : List α}

theorem split_item {r : ρ} {rest : List α} (h : F.front bs = .item r rest) :
    F.split bs = (r :: (F.split rest).1, (F.split rest).2) := by
  rw [split]
  split <;> simp_all

theorem split_bad {e : ε} (h : F.front bs = .bad e) : F.split bs = ([], bs, some e) := by
  rw [split]
  split <;> simp_all

theorem split_more (h : F.front bs = .more) : F.split bs = ([], bs, none) := by
  rw [split]
  split <;> simp_all

end Framer

/-! ## Computations that end alike -/

/-- Both fail with the same error, or both return and the results are related. -/
inductive Alike (R : α → β → Prop) : Except ε α → Except ε β → Prop
  | ok {a : α} {b : β} : R a b → Alike R (.ok a) (.ok b)
  | error (e : ε) : Alike R (.error e) (.error e)

namespace Alike
variable {R : α → β → Prop} {S : γ → δ → Prop} {x : Except ε α} {y : Except ε β}

theorem refl (x : Except ε α) : Alike Eq x x := by
  cases x with
  | ok a => exact .ok rfl
  | error e => exact .error e

theorem bind {f : α → Except ε γ} {g : β → Except ε δ} (h : Alike R x y) (hf : ∀ a b, R a b → Alike S (f a) (g b)) :
    Alike S (x >>= f) (y >>= g) := by
  cases h with
  | ok hr => exact hf _ _ hr
  | error e => exact .error e

/-- A step that both take. -/
theorem bind_same {z : Except ε α} {f : α → Except ε γ} {g : α → Except ε δ} (hf : ∀ a, Alike S (f a) (g a)) :
    Alike S (z >>= f) (z >>= g) := (refl z).bind fun a _ hab => hab ▸ hf a

theorem ite {p : Prop} [Decidable p] {x' : Except ε α} {y' : Except ε β} (h : Alike R x y) (h' : Alike R x' y') :
    Alike R (if p then x else x') (if p then y else y') := by
  split
  · exact h
  · exact h'

/-- Two computations that both end like a third. -/
theorem join {T : α → γ → Prop} {S : β → γ → Prop} {z : Except ε γ} (h : Alike R x y) (h' : Alike T x z)
    (hs : ∀ a b d, x = .ok a → R a b → T a d → S b d) : Alike S y z := by
  cases h with
  | ok hr =>
    cases h' with
    | ok ht => exact .ok (hs _ _ _ rfl hr ht)
  | error e =>
    cases h' with
    | error _ => exact .error e

theorem error_iff (h : Alike R x y) (e : ε) : x = .error e ↔ y = .error e := by
  cases h with
  | ok hr => simp
  | error e' => simp

theorem to_ok {a : α} (h : Alike R (.ok a) y) : ∃ b, y = .ok b ∧ R a b := by
  cases h with
  | ok hr => exact ⟨_, rfl, hr⟩

end Alike

end Lib
