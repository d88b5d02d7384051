import MobDebug.Proofs.Literal.Cursor.Machine
import MobDebug.Proofs.Literal.HexReading

/-!
The machine in front of a rest of its text, and what it means that it does there what a reader of
the rest does.
-/
namespace MobDebug.Literal.Cursor

variable {α β γ : Type} {env : Setting} {s t r : List UInt8} {b : UInt8} {d k n : Nat}
  {c c' : State}

/-- The state in front of a rest of the text. -/
def Setting.facing (env : Setting) (s : List UInt8) (d : Nat) : State :=
  ⟨env.source.length - s.length, d⟩

theorem source_lt (env : Setting) : env.source.length < 2 ^ 63 := env.text_lt

theorem suffix_lt (hs : s <:+ env.source) : s.length < 2 ^ 63 :=
  hs.length_le.trans_lt (source_lt env)

theorem suffix_tail (hs : b :: r <:+ env.source) : r <:+ env.source :=
  (List.suffix_cons b r).trans hs

theorem suffix_right (hs : s ++ t <:+ env.source) : t <:+ env.source :=
  (List.suffix_append s t).trans hs

theorem depth_facing (s : List UInt8) (d : Nat) : (env.facing s d).depth = d := rfl

theorem pos_facing (hs : s <:+ env.source) (d : Nat) :
    (env.facing s d).pos + s.length = env.source.length :=
  Nat.sub_add_cancel hs.length_le

theorem drop_facing (hs : s <:+ env.source) (d : Nat) :
    env.source.drop (env.facing s d).pos = s :=
  (List.suffix_iff_eq_drop.1 hs).symm

theorem getElem?_facing (hs : s <:+ env.source) (d k : Nat) :
    env.source[(env.facing s d).pos + k]? = s[k]? := by
  rw [← List.getElem?_drop, drop_facing hs]

/-! ### Steps -/

section Steps
variable {m : Scan α} {f : α → Scan β} {a : α} {e : Stop}

theorem bind_of_ok (h : m env c = .ok (a, c')) : (m >>= f) env c = f a env c' := by
  show Except.bind (m env c) _ = _
  rw [h]
  rfl

theorem bind_of_error (h : m env c = .error e) : (m >>= f) env c = .error e := by
  show Except.bind (m env c) _ = _
  rw [h]
  rfl

end Steps

theorem bind_here {f : Nat → Scan β} : (here >>= f) env c = f c.pos env c := rfl

theorem bind_limit {f : Nat → Scan β} : (getLimit >>= f) env c = f env.limit env c := rfl

theorem bind_depth {f : Nat → Scan β} : (getDepth >>= f) env c = f c.depth env c := rfl

theorem keep_of_holds {w : Width} {x : Int} (h : w.Holds x) : keep w x env c = .ok (x, c) :=
  if_pos h

theorem natural_of_holds {w : Width} {x : Int} (h : w.Holds x) :
    natural w x env c = .ok (x.toNat, c) := by
  rw [natural, bind_of_ok (keep_of_holds h)]
  rfl

theorem natural_of_lt {w : Width} (hw : w.signed = false) (h : n < 2 ^ w.bits) :
    natural w n env c = .ok (n, c) := by
  have hleast : w.least = 0 := if_neg (by rw [hw]; exact Bool.false_ne_true)
  have hn : w.Holds n := by
    rw [Width.Holds, hleast, Int.zero_add]
    exact ⟨Int.natCast_nonneg n, by exact_mod_cast h⟩
  rw [natural_of_holds hn]
  rfl

theorem size_of_lt (h : n < 2 ^ 64) : size n env c = .ok (n, c) :=
  natural_of_lt rfl h

theorem peek_facing (hs : s <:+ env.source) :
    peek env (env.facing s d) = .ok (s.head?, env.facing s d) := by
  have hbyte := getElem?_facing hs d 0
  rw [Nat.add_zero, ← List.head?_eq_getElem?] at hbyte
  rw [peek, hbyte]

theorem peekAt_facing (hs : s <:+ env.source) (hk : k < 2 ^ 63) :
    peekAt k env (env.facing s d) = .ok (s[k]?, env.facing s d) := by
  have hlt := source_lt env
  have hpos := pos_facing hs d
  rw [peekAt, bind_here, bind_of_ok (size_of_lt (by omega)), bind_of_ok rfl, getElem?_facing hs]
  rfl

theorem slice_facing (hs : s ++ t <:+ env.source) (d d' : Nat) :
    slice (env.facing (s ++ t) d).pos (env.facing t d').pos env c = .ok (s, c) := by
  have hpos := pos_facing hs d
  have hpos' := pos_facing (suffix_right hs) d'
  rw [List.length_append] at hpos
  have htake : (env.facing t d').pos - (env.facing (s ++ t) d).pos = s.length := by omega
  rw [slice, if_pos ⟨by omega, by omega⟩, List.drop_take, drop_facing hs, htake, List.take_left]

theorem sliceFrom_facing (hs : s <:+ env.source) (d : Nat) :
    sliceFrom (env.facing s d).pos env c = .ok (s, c) := by
  have hs : s ++ [] <:+ env.source := by rwa [List.append_nil]
  have h := slice_facing (c := c) hs d d
  rwa [List.append_nil] at h

theorem rest_facing (hs : s <:+ env.source) :
    rest env (env.facing s d) = .ok (s, env.facing s d) := by
  rw [rest, bind_here, sliceFrom_facing hs]

theorem moveTo_facing (s t : List UInt8) (d d' : Nat) :
    moveTo (env.facing s d).pos env (env.facing t d') = .ok ((), env.facing s d') :=
  if_pos (Nat.sub_le _ _)

theorem setDepth_facing (s : List UInt8) (d d' : Nat) :
    setDepth d' env (env.facing s d) = .ok ((), env.facing s d') := rfl

theorem advance_facing (hs : s ++ t <:+ env.source) (hn : n = s.length) :
    advance n env (env.facing (s ++ t) d) = .ok ((), env.facing t d) := by
  have hlt := source_lt env
  have hpos := pos_facing hs d
  have hpos' := pos_facing (suffix_right hs) d
  rw [List.length_append] at hpos
  have hsum : (env.facing (s ++ t) d).pos + n = (env.facing t d).pos := by omega
  rw [advance, bind_here, hsum, bind_of_ok (size_of_lt (by omega)), moveTo_facing]

theorem advance_cons (hs : b :: r <:+ env.source) :
    advance 1 env (env.facing (b :: r) d) = .ok ((), env.facing r d) :=
  advance_facing (s := [b]) hs rfl

/-! ### Loops -/

section Loops
variable {lead : β → Nat} {body : β → Scan (β ⊕ γ)} {x y : β} {a : γ} {e : Stop}

theorem loopFrom_done (h : body x env c = .ok (.inr a, c')) :
    loopFrom lead body x env c = .ok (a, c') := by
  rw [loopFrom, h]

theorem loopFrom_stop (h : body x env c = .error e) : loopFrom lead body x env c = .error e := by
  rw [loopFrom, h]

theorem loopFrom_next (h : body x env c = .ok (.inl y, c')) (hlt : lead x + c.pos < lead y + c'.pos)
    (hle : lead y + c'.pos ≤ env.source.length) :
    loopFrom lead body x env c = loopFrom lead body y env c' := by
  rw [loopFrom, h]
  exact if_pos ⟨hlt, hle⟩

theorem loop_next (hs : s <:+ env.source) (ht : t <:+ env.source) (hlt : t.length < s.length)
    (h : body x env (env.facing s d) = .ok (.inl y, env.facing t d)) :
    loop body x env (env.facing s d) = loop body y env (env.facing t d) := by
  have hpos := pos_facing hs d
  have hpos' := pos_facing ht d
  exact loopFrom_next h (by omega) (by omega)

end Loops

/-! ### Tracking a reader -/

/-- A numeral of the text has an exponent below 64 bits, with the one that is written or before it
is added. -/
def Sunken (s : List UInt8) : Prop :=
  ∃ numeral ds fraction written, numeral <:+: s ∧ HexReal numeral ds fraction written ∧
    written.natAbs < 2 ^ 63 ∧ min written 0 - 4 * fraction < -2 ^ 63

/-- The machine ends as a reader does: behind the same thing, or at the same fault. If integers do
not wrap it may stop at one that leaves its width, where the exponent of a numeral does. -/
inductive Tracks (env : Setting) (d : Nat) :
    Except Stop (α × State) → Except Failure (α × List UInt8) → Prop
  | ok (a : α) {t : List UInt8} (ht : t <:+ env.source) :
    Tracks env d (.ok (a, env.facing t d)) (.ok (a, t))
  | fault (e : Failure) :
    Tracks env d (.error (.fault ⟨e.fault, env.source.length - e.left⟩)) (.error e)
  | overflow {x : Except Failure (α × List UInt8)} (hw : env.wraps = false)
    (h : Sunken env.source) : Tracks env d (.error (.breach .overflow)) x

/-- A fault at a place from before. -/
theorem Tracks.failFrom (fault : Fault) (s : List UInt8) (d' : Nat) (c : State) :
    Tracks (α := α) env d (failFrom (env.facing s d').pos fault env c) (.error ⟨fault, s.length⟩) :=
  .fault ⟨fault, s.length⟩

theorem Tracks.fail (fault : Fault) (s : List UInt8) :
    Tracks (α := α) env d (fail fault env (env.facing s d)) (.error ⟨fault, s.length⟩) :=
  .failFrom fault s d (env.facing s d)

/-- What was read, and the rest. -/
def parsed (x : Except Failure (Parsed α s)) : Except Failure (α × List UInt8) :=
  x.map fun p => (p.value, p.rest)

/-- What was read, and the rest. -/
def rested (x : Except Failure (α × Rest s)) : Except Failure (α × List UInt8) :=
  x.map fun p => (p.1, p.2.1)

section Tracks
variable {m : Scan α} {f : α → Scan β} {a : α} {e : Failure} {d' : Nat}
  {x : Except Failure (β × List UInt8)}

theorem Tracks.bind_ok (hm : Tracks env d (m env c) (.ok (a, t)))
    (hf : t <:+ env.source → Tracks env d' (f a env (env.facing t d)) x) :
    Tracks env d' ((m >>= f) env c) x := by
  generalize hy : m env c = y at hm
  cases hm with
  | ok _ ht =>
    rw [bind_of_ok hy]
    exact hf ht
  | overflow hw h =>
    rw [bind_of_error hy]
    exact .overflow hw h

theorem Tracks.bind_error (hm : Tracks env d (m env c) (.error e)) :
    Tracks env d' ((m >>= f) env c) (.error e) := by
  generalize hy : m env c = y at hm
  cases hm with
  | fault =>
    rw [bind_of_error hy]
    exact .fault e
  | overflow hw h =>
    rw [bind_of_error hy]
    exact .overflow hw h

/-- What is read one after the other, by machine and reader alike. -/
theorem Tracks.seq {ρ σ : Type} {y : Except Failure ρ} {v : ρ → α × List UInt8}
    {k : ρ → Except Failure σ} {w : σ → β × List UInt8} (hm : Tracks env d (m env c) (y.map v))
    (hf : ∀ p, y = .ok p → (v p).2 <:+ env.source →
      Tracks env d' (f (v p).1 env (env.facing (v p).2 d)) ((k p).map w)) :
    Tracks env d' ((m >>= f) env c) ((y >>= k).map w) := by
  rcases y with e | p
  · exact hm.bind_error
  · exact hm.bind_ok fun ht => hf p rfl ht

theorem Tracks.map {y : Except Failure (α × List UInt8)} (hm : Tracks env d (m env c) y)
    (g : α → β) :
    Tracks env d ((m >>= fun a => pure (g a)) env c) (y.map fun p => (g p.1, p.2)) := by
  rcases y with e | ⟨a, t⟩
  · exact hm.bind_error
  · exact hm.bind_ok fun ht => .ok (g a) ht

variable {body : β → Scan (β ⊕ γ)} {y z : β} {result : γ} {w : Except Failure (γ × List UInt8)}

theorem Tracks.loop_next (hs : s <:+ env.source) (hlt : t.length < s.length)
    (h : Tracks env d (body y env (env.facing s d)) (.ok (.inl z, t)))
    (hnext : t <:+ env.source → Tracks env d (loop body z env (env.facing t d)) w) :
    Tracks env d (loop body y env (env.facing s d)) w := by
  generalize hb : body y env (env.facing s d) = v at h
  cases h with
  | ok _ ht =>
    rw [Cursor.loop_next hs ht hlt hb]
    exact hnext ht
  | overflow hw h =>
    rw [loop, loopFrom_stop hb]
    exact .overflow hw h

theorem Tracks.loop_done (h : Tracks env d (body y env c) (.ok (.inr result, t))) :
    Tracks env d (loop body y env c) (.ok (result, t)) := by
  generalize hb : body y env c = v at h
  cases h with
  | ok _ ht =>
    rw [loop, loopFrom_done hb]
    exact .ok result ht
  | overflow hw h =>
    rw [loop, loopFrom_stop hb]
    exact .overflow hw h

theorem Tracks.loop_error (h : Tracks env d (body y env c) (.error e)) :
    Tracks env d (loop body y env c) (.error e) := by
  generalize hb : body y env c = v at h
  cases h with
  | fault =>
    rw [loop, loopFrom_stop hb]
    exact .fault e
  | overflow hw h =>
    rw [loop, loopFrom_stop hb]
    exact .overflow hw h

end Tracks
end MobDebug.Literal.Cursor
