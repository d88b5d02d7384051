import MobDebug.LogFilter.Directive
import Mathlib.Order.Basic

/-!
The orders of values, fields and directives are total preorders: two directives are about the same,
or one is more specific than the other.
-/
namespace MobDebug

/-- A comparison of what stands for things. -/
theorem transCmp_on {α β : Type} (c : β → β → Ordering) [Std.TransCmp c] (f : α → β) :
    Std.TransCmp fun a b => c (f a) (f b) where
  eq_swap := Std.OrientedCmp.eq_swap
  isLE_trans := Std.TransCmp.isLE_trans

/-! ### Numbers -/

/-- Which numbers a double is among: the infinities and NaN stand apart. -/
def Double.side : Double → Nat
  | .infinite true => 0
  | .finite _ => 1
  | .infinite false => 2
  | .nan => 3

/-- Where a finite number is among the others. -/
def Double.height : Double → Int
  | .finite f => f.units
  | _ => 0

theorem Double.order_eq :
    Double.order = compareLex (compareOn Double.side) (compareOn Double.height) := by
  funext x y
  cases x with
  | nan => cases y with
    | infinite negative => cases negative <;> rfl
    | _ => rfl
  | infinite negative => cases y with
    | infinite negative' => cases negative <;> cases negative' <;> rfl
    | _ => cases negative <;> rfl
  | finite f => cases y with
    | infinite negative => cases negative <;> rfl
    | _ => rfl

instance : Std.TransCmp Double.order := by
  rw [Double.order_eq]
  infer_instance

namespace LogFilter

/-! ### Values and fields -/

/-- What a value is if it is of some kind, for each kind; and something arbitrary if it is of
another. -/
def Value.content : Value → Bool × Double × Nat × Int × String
  | .bool b => (b, .nan, 0, 0, "")
  | .double x => (false, x, 0, 0, "")
  | .natural n => (false, .nan, n, 0, "")
  | .integer i => (false, .nan, 0, i, "")
  | .pattern text => (false, .nan, 0, 0, text)

instance : Std.TransCmp fun v w : Value => v.content.2.1.order w.content.2.1 :=
  transCmp_on Double.order fun v : Value => v.content.2.1

/-- Across kinds by the kinds alone, and within a kind by what stands for it. -/
theorem Value.order_eq : Value.order = compareLex (compareOn Value.rank)
    (compareLex (compareOn fun v => v.content.1)
      (compareLex (fun v w => v.content.2.1.order w.content.2.1)
        (compareLex (compareOn fun v => v.content.2.2.1)
          (compareLex (compareOn fun v => v.content.2.2.2.1)
            (compareOn fun v => v.content.2.2.2.2))))) := by
  funext v w
  have hnan : Double.order .nan .nan = .eq := rfl
  cases v <;> cases w <;> simp [order, compareLex, compareOn, rank, content, hnan]
  all_goals rfl

instance : Std.TransCmp Value.order := by
  rw [Value.order_eq]
  infer_instance

/-- The value of a field, or any where it has none. -/
def Field.worth (f : Field) : Value :=
  f.value.getD (.bool false)

theorem Field.order_eq : Field.order = compareLex (compareOn fun f => f.value.isSome)
    (compareLex (compareOn Field.name) fun a b => a.worth.order b.worth) := by
  funext a b
  obtain ⟨name, value⟩ := a
  obtain ⟨name', value'⟩ := b
  cases value <;> cases value'
  · change compare name name' = (compare name name').then .eq
    rw [Ordering.then_eq]
  · rfl
  · rfl
  · rfl

instance : Std.TransCmp fun a b : Field => a.worth.order b.worth :=
  transCmp_on Value.order Field.worth

instance : Std.TransCmp Field.order := by
  rw [Field.order_eq]
  infer_instance

/-! ### Directives -/

instance : Std.TransCmp fun a b : Directive => List.compareLex Field.order a.fields b.fields :=
  transCmp_on (List.compareLex Field.order) Directive.fields

instance : Std.TransCmp Directive.order :=
  inferInstanceAs (Std.TransCmp
    (compareLex (compareOn fun d : Directive => d.target.map String.utf8ByteSize)
      (compareLex (compareOn fun d : Directive => d.span.isSome)
        (compareLex (compareOn fun d : Directive => d.fields.length)
          (compareLex (compareOn Directive.target)
            (compareLex (compareOn Directive.span)
              fun a b : Directive => List.compareLex Field.order a.fields b.fields))))))

variable {a b c : Directive}

/-- Two directives are about the same: about one target and span, and fields that are alike. -/
def Directive.Same (a b : Directive) : Prop :=
  a.order b = .eq

theorem Directive.Same.symm (h : a.Same b) : b.Same a :=
  Std.OrientedCmp.eq_symm h

theorem Directive.Same.trans (h : a.Same b) (h' : b.Same c) : a.Same c :=
  Std.TransCmp.eq_trans h h'

end LogFilter
end MobDebug
