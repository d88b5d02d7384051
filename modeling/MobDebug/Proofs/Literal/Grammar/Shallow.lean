import MobDebug.Proofs.Literal.Grammar.Trivia
import MobDebug.Literal.Reader

/-! Only a table can be nested too deep: what reads tokens, trivia and words never fails for it. -/
namespace MobDebug.Literal

variable {α β : Type} {x : Except Failure α} {f : α → β} {g : α → Except Failure β} {e : Failure}
  {fault : Fault} {wanted : UInt8} {s r : List UInt8}

/-- If it fails, then not for the depth of tables. -/
def Shallow (x : Except Failure α) : Prop :=
  ∀ e, x = .error e → ∀ limit, e.fault ≠ .tooDeep limit

@[simp] theorem shallow_ok (a : α) : Shallow (.ok a) := nofun

@[simp] theorem shallow_failAt :
    Shallow (failAt fault s : Except Failure α) ↔ ∀ limit, fault ≠ .tooDeep limit := by
  simp [Shallow, failAt]

theorem shallow_ite {y : Except Failure α} {p : Prop} [Decidable p] (hx : Shallow x)
    (hy : Shallow y) : Shallow (if p then x else y) := by
  split <;> assumption

theorem Shallow.error (h : Shallow x) (he : x = .error e) :
    Shallow (.error e : Except Failure β) := by
  rintro _ ⟨⟩
  exact h e he

theorem Shallow.map (h : Shallow x) : Shallow (x.map f) := by
  cases x with
  | error e => exact h.error rfl
  | ok a => exact shallow_ok (f a)

theorem Shallow.bind (h : Shallow x) (hg : ∀ a, Shallow (g a)) : Shallow (x >>= g) := by
  cases x with
  | error e => exact h.error rfl
  | ok a => exact hg a

/-! ### Trivia and tokens -/

theorem shallow_longBracket (s : List UInt8) : Shallow (longBracket s) := by
  unfold longBracket
  split
  · simp
  split
  · split
    · simp
    · split <;> simp
  · simp

/-- By induction on the comments. -/
theorem shallow_skipTrivia (s : List UInt8) : Shallow (skipTrivia s) := by
  induction hn : s.length using Nat.strong_induction_on generalizing s with
  | _ n ih =>
  subst hn
  rw [skipTrivia]
  dsimp only
  have hs := length_dropWhile_le isSpace s
  split
  · simp
  · next t ht =>
    have hl := length_of_strip? ht
    split
    · next he => exact (shallow_longBracket t).error he
    · next bracket _ =>
      have := bracket.shorter
      exact (ih _ (by simp at hl; omega) bracket.rest rfl).map
    · have := length_dropWhile_le (· != ascii '\n') t
      exact (ih _ (by simp at hl; omega) _ rfl).map

theorem shallow_expect (wanted : UInt8) (s : List UInt8) : Shallow (expect wanted s) := by
  unfold expect
  split
  · next he => exact (shallow_skipTrivia s).error he
  · simp
  · split <;> simp

theorem shallow_equalsSign? (s : List UInt8) : Shallow (equalsSign? s) := by
  unfold equalsSign?
  split
  · next he => exact (shallow_skipTrivia s).error he
  · simp
  · split <;> simp

/-! ### Strings -/

theorem shallow_readCode (any : Bool) (code : Nat) (s : List UInt8) :
    Shallow (readCode any code s) := by
  induction s generalizing any code with
  | nil => simp [readCode]
  | cons b r ih =>
    unfold readCode
    split
    · split
      · exact (ih _ _).map
      · simp
    · simp

theorem shallow_codeEscape (s : List UInt8) : Shallow (codeEscape s) := by
  unfold codeEscape
  split
  · simp
  split
  · simp
  split
  · next he => exact (shallow_readCode _ _ _).error he
  · split
    · simp
    · split
      · simp
      · split <;> simp

theorem shallow_escape (s : List UInt8) : Shallow (escape s) := by
  unfold escape
  split
  · simp
  split
  · simp
  split
  · split
    · split <;> simp
    · simp
  split
  · simp
  split
  · split
    · split <;> simp
    · simp
  split
  · exact shallow_ite (shallow_ok _) (by simp)
  split
  · exact (shallow_codeEscape _).map
  · simp

theorem shallow_quotation (quote : UInt8) (s : List UInt8) : Shallow (quotation quote s) := by
  induction hn : s.length using Nat.strong_induction_on generalizing s with
  | _ n ih =>
  subst hn
  rcases s with - | ⟨b, r⟩
  · simp [quotation]
  rw [quotation]
  split
  · simp
  split
  · simp
  split
  · split
    · next he => exact (shallow_escape r).error he
    · next rest _ => exact (ih _ (Nat.lt_succ_of_le rest.2) rest.1 rfl).map
  · exact (ih _ (Nat.lt_succ_self _) r rfl).map

/-! ### Numbers -/

theorem shallow_readHexExponent (s : List UInt8) : Shallow (readHexExponent s) := by
  unfold readHexExponent
  dsimp only
  split <;> exact shallow_ite (by simp) (shallow_ok _)

theorem shallow_hexNumeral (start s : List UInt8) : Shallow (hexNumeral start s) := by
  unfold hexNumeral
  dsimp only
  split
  · simp
  split
  · simp
  split
  · split
    · next he => exact (shallow_readHexExponent _).error he
    · simp
  · simp

theorem shallow_decimal (b : UInt8) (s : List UInt8) : Shallow (numeral.decimal b s) := by
  unfold numeral.decimal
  dsimp only
  split <;> simp

theorem shallow_numeral (b : UInt8) (s : List UInt8) : Shallow (numeral b s) := by
  unfold numeral
  dsimp only
  split
  · next e he =>
    split at he
    · split at he
      · exact (shallow_hexNumeral _ _).map.error he
      · exact (shallow_decimal _ _).error he
    · exact (shallow_decimal _ _).error he
  · split <;> simp

/-! ### Words -/

theorem shallow_mathHuge (s : List UInt8) : Shallow (mathHuge s) := by
  unfold mathHuge
  split
  · split <;> simp
  · simp

theorem shallow_nilOrReference (s : List UInt8) : Shallow (nilOrReference s) := by
  unfold nilOrReference
  dsimp only
  split
  · simp
  · split
    · next he => exact (shallow_longBracket _).error he
    · simp
    · simp

theorem shallow_functionPlaceholder (s : List UInt8) : Shallow (functionPlaceholder s) := by
  refine (shallow_expect _ s).bind fun opened => (shallow_expect _ _).bind fun closed =>
    (shallow_skipTrivia _).bind fun rest => ?_
  dsimp only
  split
  · exact shallow_ite (shallow_ok _) (by simp)
  · simp

theorem shallow_named (s : List UInt8) (name : Parsed String s) : Shallow (named s name) := by
  unfold named
  dsimp only
  split
  · exact (shallow_nilOrReference _).map
  split
  · simp
  split
  · simp
  split
  · exact (shallow_mathHuge s).map
  split
  · exact (shallow_functionPlaceholder _).map
  · simp

theorem shallow_negated (s : List UInt8) : Shallow (negated s) := by
  refine (shallow_skipTrivia s).bind fun rest => ?_
  dsimp only
  split
  · exact (shallow_mathHuge _).map
  · split
    · split
      · exact (shallow_numeral _ _).map
      · simp
    · simp

/-- Among the literals only a table can be too deep. -/
theorem shallow_literal (table : Parser Value) {b : UInt8} (hb : b ≠ ascii '\x7b')
    (r : List UInt8) : Shallow (literal table b r) := by
  unfold literal
  rw [if_neg hb]
  split
  · exact (shallow_quotation b r).map
  split
  · split
    · next he => exact (shallow_longBracket _).error he
    · simp
    · simp
  split
  · exact (shallow_negated r).map
  split
  · split
    · split
      · simp
      · exact (shallow_numeral _ _).map
    · exact (shallow_numeral _ _).map
  split
  · exact shallow_named _ _
  · simp

end MobDebug.Literal
