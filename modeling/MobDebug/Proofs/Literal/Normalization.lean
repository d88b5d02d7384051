import MobDebug.Proofs.Double.Equality
import MobDebug.Proofs.Literal.Grammar.Regularity

/-!
Keys and equality have the same view of numbers. Equality asks for the number, whichever kind holds
it; a key holds its form, of which normalization leaves one for every number.
-/
namespace MobDebug.Literal

variable {a b : Number} {i : Int64} {k : Key} {v : Value} {x : Double}

/-- What number a value is, whichever kind holds it. NaN is none. -/
def Number.quantity? : Number → Option (Bool ⊕ ℚ)
  | .int i => some (.inr i.toInt)
  | .float x => x.quantity?

theorem Number.quantity?_isSome (ha : a ≠ .float .nan) : ∃ q, a.quantity? = some q := by
  cases a with
  | int i => exact ⟨_, rfl⟩
  | float x =>
    rw [← Option.isSome_iff_exists, ← Option.ne_none_iff_isSome]
    exact fun h => ha (congrArg Number.float (Double.quantity?_eq_none_iff.1 h))

/-- A float against an integer is equal by its integer, and two floats by their numbers. -/
theorem Number.equal_iff :
    a.equal b = true ↔ ∃ q, a.quantity? = some q ∧ b.quantity? = some q := by
  cases a with
  | int i =>
    cases b with
    | int j => simpa [Number.equal, quantity?, Int64.toInt_inj] using eq_comm
    | float y =>
      rw [Number.equal, beq_iff_eq, Double.toInt64?_eq_some_iff_quantity?]
      simp [quantity?]
  | float x =>
    cases b with
    | int j =>
      rw [Number.equal, beq_iff_eq, Double.toInt64?_eq_some_iff_quantity?]
      simp [quantity?]
    | float y => exact Double.equal_iff

theorem Number.equal_iff_quantity? (ha : a ≠ .float .nan) :
    a.equal b = true ↔ a.quantity? = b.quantity? := by
  obtain ⟨q, hq⟩ := quantity?_isSome ha
  rw [Number.equal_iff, hq]
  simp [eq_comm]

theorem Key.ofValue?_integral (hx : x.toInt64? = some i) :
    Key.ofValue? (.number (.float x)) = some (.int i) := by
  cases x with
  | nan => cases hx
  | infinite | finite => simp only [Key.ofValue?, hx]

theorem Key.ofValue?_fractional (hn : x ≠ .nan) (hx : x.toInt64? = none) :
    Key.ofValue? (.number (.float x)) = some (.float x) := by
  cases x with
  | nan => exact absurd rfl hn
  | infinite | finite => simp only [Key.ofValue?, hx]

/-- The key of a number is the same number. -/
theorem Key.number_of_ofValue? (ha : a ≠ .float .nan) : ∃ k n, Key.ofValue? (.number a) = some k ∧
    k.toValue = .number n ∧ n.quantity? = a.quantity? := by
  cases a with
  | int i => exact ⟨_, _, rfl, rfl, rfl⟩
  | float x =>
    cases hx : x.toInt64? with
    | none =>
      exact ⟨_, _, ofValue?_fractional (fun h => ha (congrArg Number.float h)) hx, rfl, rfl⟩
    | some i =>
      exact ⟨_, _, ofValue?_integral hx, rfl, (Double.toInt64?_eq_some_iff_quantity?.1 hx).symm⟩

/-- Of the forms of one number, every one has the same key: the integer's if there is one, and
else there is only one form. -/
theorem Key.ofValue?_congr (h : a.quantity? = b.quantity?) :
    Key.ofValue? (.number a) = Key.ofValue? (.number b) := by
  have hinteger {i : Int64} {x : Double} (h : x.quantity? = some (.inr i.toInt)) :
      Key.ofValue? (.number (.float x)) = some (.int i) :=
    ofValue?_integral (Double.toInt64?_eq_some_iff_quantity?.2 h)
  cases a with
  | int i =>
    cases b with
    | int j =>
      have hij : i = j := by simpa [Number.quantity?, Int64.toInt_inj] using h
      rw [hij]
    | float y => exact (hinteger h.symm).symm
  | float x =>
    cases b with
    | int j => exact hinteger h
    | float y =>
      cases hx : x.toInt64? with
      | none => rw [Double.eq_of_quantity? hx h]
      | some i =>
        have hy : y.toInt64? = some i := (Double.toInt64?_congr h).symm.trans hx
        rw [ofValue?_integral hx, ofValue?_integral hy]

/-- A normal key is the key of its own value. -/
theorem Key.Normal.ofValue?_toValue (hk : k.Normal) : Key.ofValue? k.toValue = some k := by
  cases k with
  | int | str | bool => rfl
  | float x => exact ofValue?_fractional hk.1 hk.2

/-- Two numbers have the same key where they are equal, which is where they are the same number. So
no spelling of a number misses its entry, and no two numbers share one. A key is its own key
again. -/
theorem key_eq_iff_equal :
    (∀ a b : Number, a ≠ .float .nan → b ≠ .float .nan →
      (∃ k, Key.ofValue? (.number a) = some k) ∧
        (Key.ofValue? (.number a) = Key.ofValue? (.number b) ↔ a.equal b = true) ∧
        (a.equal b = true ↔ a.quantity? = b.quantity?)) ∧
      ∀ v k, Key.ofValue? v = some k → Key.ofValue? k.toValue = some k := by
  refine ⟨fun a b ha hb => ?_, fun v k hk => (Key.normal_of_ofValue? hk).ofValue?_toValue⟩
  have hequal := Number.equal_iff_quantity? (b := b) ha
  obtain ⟨k, n, hk, hn, hq⟩ := Key.number_of_ofValue? ha
  refine ⟨⟨k, hk⟩, ?_, hequal⟩
  rw [hequal]
  refine ⟨fun h => ?_, Key.ofValue?_congr⟩
  obtain ⟨l, m, hl, hm, hr⟩ := Key.number_of_ofValue? hb
  obtain rfl : k = l := Option.some.inj (hk.symm.trans (h.trans hl))
  obtain rfl : n = m := Value.number.inj (hn.symm.trans hm)
  exact hq.symm.trans hr

/-- The least integer and minus two to the 63rd, minus zero and zero, and two to the 63rd, which no
integer of 64 bits is. -/
theorem key_eq_iff_equal_ends :
    Key.ofValue? (.number (.int .minValue)) =
        Key.ofValue? (.number (.float (.finite ⟨true, 2 ^ 52, 11, by decide⟩))) ∧
      Key.ofValue? (.number (.int 0)) = Key.ofValue? (.number (.float (.zero true))) ∧
      Key.ofValue? (.number (.int .maxValue)) ≠
        Key.ofValue? (.number (.float (.finite ⟨false, 2 ^ 52, 11, by decide⟩))) ∧
      Key.ofValue? (Key.int 0).toValue = some (.int 0) := by
  obtain ⟨hnumbers, hkeys⟩ := key_eq_iff_equal
  refine ⟨?_, ?_, ?_, hkeys (.number (.float (.zero true))) (.int 0) (by decide +kernel)⟩
  · exact (hnumbers (.int .minValue) (.float (.finite ⟨true, 2 ^ 52, 11, by decide⟩)) (by decide)
      (by decide)).2.1.2 (by decide +kernel)
  · exact (hnumbers (.int 0) (.float (.zero true)) (by decide) (by decide)).2.1.2
      (by decide +kernel)
  · exact fun h => absurd ((hnumbers (.int .maxValue)
      (.float (.finite ⟨false, 2 ^ 52, 11, by decide⟩)) (by decide) (by decide)).2.1.1 h)
      (by decide +kernel)

end MobDebug.Literal
