import MobDebug.Proofs.Literal.Cursor.Strings

/-! Tables, read in place. What reads their items is left open. -/
namespace MobDebug.Literal.Cursor

variable {env : Setting} {s r u : List UInt8} {b : UInt8} {d n : Nat} {t : Table}

/-! ### Keys -/

section Signs
variable {x : UInt8} {p : Option UInt8 → Prop} [DecidablePred p]

theorem standsBefore_facing (hs : b :: r <:+ env.source) :
    standsBefore x p env (env.facing (b :: r) d) =
      .ok (decide (b = x ∧ p r.head?), env.facing (b :: r) d) := by
  rw [standsBefore, bind_of_ok (peek_facing hs), List.head?_cons]
  by_cases hb : b = x
  · rw [if_pos (congrArg some hb), bind_of_ok (peekAt_facing hs (by decide)),
      List.getElem?_cons_succ, ← List.head?_eq_getElem?]
    simp only [hb, true_and]
    rfl
  · rw [if_neg (by simpa using hb)]
    simp only [hb, false_and, decide_false]
    rfl

theorem standsBefore_end (hs : [] <:+ env.source) :
    standsBefore x p env (env.facing [] d) = .ok (false, env.facing [] d) := by
  rw [standsBefore, bind_of_ok (peek_facing hs)]
  rfl

end Signs

/-- What follows an entry: another entry, with the table so far and the next position, or the end of
the table. -/
def separated (t : Table) (next : Int) (s : List UInt8) :
    Except Failure ((Table × Int ⊕ Table) × List UInt8) :=
  match Literal.skipTrivia s with
  | .error e => .error e
  | .ok ⟨[], _⟩ => .error ⟨.unterminatedTable, 0⟩
  | .ok ⟨b :: r, _⟩ =>
    if b = ascii ',' ∨ b = ascii ';' then .ok (.inl (t, next), r)
    else if b = ascii '\x7d' then .ok (.inr t, r)
    else .error ⟨.entryEnd b, (b :: r).length⟩

section Items
variable {item : Scan Value} {reader : Parser Value}
  (hitem : ∀ s, s <:+ env.source → Tracks env d (item env (env.facing s d)) (parsed (reader s)))
include hitem

theorem bracketEntry_tracks (hs : b :: r <:+ env.source) :
    Tracks env d (bracketEntry item env (env.facing (b :: r) d))
      (parsed (Literal.bracketEntry reader r)) := by
  rw [bracketEntry, bind_of_ok (advance_cons hs), bind_here]
  refine (hitem r (suffix_tail hs)).seq fun key _ hr => ?_
  refine (expect_tracks (ascii ']') hr).seq fun closed _ hr => ?_
  refine (expect_tracks (ascii '=') hr).seq fun equals _ hr => ?_
  refine (hitem _ hr).seq fun value _ hr => ?_
  dsimp only
  cases Key.ofValue? key.value with
  | some k => exact .ok _ hr
  | none => exact .failFrom _ _ d (env.facing value.rest d)

theorem keyedEntry_bracket_tracks (hs : b :: r <:+ env.source) (hkey : b = ascii '[' ∧
      r.head? ≠ some (ascii '[') ∧ r.head? ≠ some (ascii '=')) :
    Tracks env d (keyedEntry item env (env.facing (b :: r) d))
      ((parsed (Literal.bracketEntry reader r)).map fun p => (some p.1, p.2)) := by
  rw [keyedEntry, bind_here, opensKey, bind_of_ok (standsBefore_facing hs),
    if_pos (decide_eq_true hkey)]
  exact (bracketEntry_tracks hitem hs).map some

omit hitem in
theorem keyedEntry_nameless_tracks (hs : s <:+ env.source) (hkey : ∀ b r, s = b :: r →
      ¬ (b = ascii '[' ∧ r.head? ≠ some (ascii '[') ∧ r.head? ≠ some (ascii '=')))
    (hname : name? s = none) :
    Tracks env d (keyedEntry item env (env.facing s d)) (.ok (none, s)) := by
  have hopen : opensKey env (env.facing s d) = .ok (false, env.facing s d) := by
    rcases s with - | ⟨b, r⟩
    · exact standsBefore_end hs
    · rw [opensKey, standsBefore_facing hs, decide_eq_false (hkey b r rfl)]
  rw [keyedEntry, bind_here, bind_of_ok hopen, if_neg Bool.false_ne_true,
    bind_of_ok (peekName_facing hs), hname]
  exact .ok none hs

theorem keyedEntry_named_tracks {name : Parsed String (b :: r)} (hs : b :: r <:+ env.source)
    (hkey : ¬ (b = ascii '[' ∧ r.head? ≠ some (ascii '[') ∧ r.head? ≠ some (ascii '=')))
    (hname : name? (b :: r) = some name) :
    Tracks env d (keyedEntry item env (env.facing (b :: r) d))
      (match Literal.equalsSign? name.rest with
        | .error e => .error e
        | .ok none => .ok (none, b :: r)
        | .ok (some equals) =>
          if reservedWords.contains name.value then
            .error ⟨.reservedWord name.value, (b :: r).length⟩
          else (parsed (reader equals.rest)).map fun p => (some (.str name.value, p.1), p.2)) := by
  obtain ⟨hskip, hr⟩ := skipName_facing (d := d) hs hname
  have htrivia := skipTrivia_tracks (d := d) hr
  rw [skipped] at htrivia
  rw [keyedEntry, bind_here, opensKey, bind_of_ok (standsBefore_facing hs),
    if_neg (by simpa using hkey), bind_of_ok (peekName_facing hs), hname]
  dsimp only [Option.map_some]
  rw [bind_of_ok hskip, equalsSign?]
  rcases hk : Literal.skipTrivia name.rest with e | ⟨u, hu⟩ <;> rw [hk] at htrivia
  · exact htrivia.bind_error
  refine htrivia.bind_ok fun hu => ?_
  rcases u with - | ⟨x, u⟩
  · rw [equalsSign, bind_of_ok (standsBefore_end hu), if_neg Bool.false_ne_true,
      bind_of_ok (moveTo_facing _ _ _ _)]
    exact .ok none hs
  · rw [equalsSign, bind_of_ok (standsBefore_facing hu)]
    by_cases hx : x = ascii '=' ∧ u.head? ≠ some (ascii '=')
    · rw [if_pos (decide_eq_true hx)]
      simp only [if_pos hx]
      split
      · rw [bind_of_ok (moveTo_facing _ _ _ _)]
        exact .fail _ _
      · rw [bind_of_ok (advance_cons hu)]
        exact (hitem u (suffix_tail hu)).map fun v => some (Key.str name.value, v)
    · rw [if_neg (by simpa using hx)]
      simp only [if_neg hx]
      rw [bind_of_ok (moveTo_facing _ _ _ _)]
      exact .ok none hs

/-! ### Entries -/

/-- What an entry does to a table and to the next position. -/
def assigned (t : Table) (n : Nat) (x : Except Failure (Parsed (Option Key × Value) s)) :
    Except Failure ((Table × Int) × List UInt8) :=
  x.map fun p => ((t.insert (p.value.1.getD (.position n)) p.value.2,
    if p.value.1.isNone then n + 1 else n), p.rest)

theorem entry_positional_tracks (hs : s <:+ env.source) (hn : n + s.length ≤ env.source.length)
    (hk : Tracks env d (keyedEntry item env (env.facing s d)) (.ok (none, s))) :
    Tracks env d (entry item t n env (env.facing s d))
      (assigned t n (Literal.positionalEntry reader s)) := by
  refine hk.bind_ok fun _ => ?_
  have hread := hitem s hs
  dsimp only
  rw [Literal.positionalEntry]
  rcases hx : reader s with e | p <;> rw [hx] at hread
  · exact hread.bind_error
  · have hlt := source_lt env
    have hshort := p.shorter
    have hnext : Width.long.Holds ((n : Int) + 1) := by
      rw [holds_long]
      omega
    refine hread.bind_ok fun hr => ?_
    rw [bind_of_ok (keep_of_holds hnext), Int64.ofInt_eq_ofNat]
    exact .ok _ hr

omit hitem in
theorem entry_keyed_tracks {x : Except Failure ((Key × Value) × List UInt8)}
    (hk : Tracks env d (keyedEntry item env (env.facing s d)) (x.map fun p => (some p.1, p.2))) :
    Tracks env d (entry item t n env (env.facing s d))
      (x.map fun p => ((t.insert p.1.1 p.1.2, (n : Int)), p.2)) := by
  rcases x with e | ⟨p, r⟩
  · exact hk.bind_error
  · exact hk.bind_ok fun hr => .ok _ hr

theorem entry_tracks (hs : s <:+ env.source) (hn : n + s.length ≤ env.source.length) :
    Tracks env d (entry item t n env (env.facing s d))
      (assigned t n (Literal.entry reader s)) := by
  rcases s with - | ⟨b, r⟩
  · exact entry_positional_tracks hitem hs hn (keyedEntry_nameless_tracks hs nofun rfl)
  rw [Literal.entry]
  by_cases hkey : b = ascii '[' ∧ r.head? ≠ some (ascii '[') ∧ r.head? ≠ some (ascii '=')
  · have hread := entry_keyed_tracks (t := t) (n := n) (keyedEntry_bracket_tracks hitem hs hkey)
    rw [if_pos hkey]
    cases hx : Literal.bracketEntry reader r <;> rwa [hx] at hread
  rw [if_neg hkey]
  cases hname : name? (b :: r) with
  | none =>
    refine entry_positional_tracks hitem hs hn (keyedEntry_nameless_tracks hs ?_ hname)
    rintro _ _ ⟨⟩
    exact hkey
  | some name =>
    have hread := keyedEntry_named_tracks hitem hs hkey hname
    dsimp only
    split
    · next e he =>
      rw [he] at hread
      exact hread.bind_error
    · next he =>
      rw [he] at hread
      exact entry_positional_tracks hitem hs hn hread
    · next equals he =>
      rw [he] at hread
      dsimp only at hread
      split
      · next hword =>
        rw [if_pos hword] at hread
        exact hread.bind_error
      · next hword =>
        rw [if_neg hword] at hread
        cases hx : reader equals.rest <;> rw [hx] at hread
        · exact hread.bind_error
        · exact hread.bind_ok fun hr => .ok _ hr

/-! ### Tables -/

omit hitem in
theorem separator_tracks (hs : s <:+ env.source) (next : Int) :
    Tracks env d ((skipTrivia >>= fun _ => separator t next) env (env.facing s d))
      (separated t next s) := by
  have hskip := skipTrivia_tracks (d := d) hs
  rw [skipped] at hskip
  rw [separated]
  rcases hk : Literal.skipTrivia s with e | ⟨- | ⟨b, r⟩, hl⟩ <;> rw [hk] at hskip
  · exact hskip.bind_error
  · refine hskip.bind_ok fun hu => ?_
    rw [separator, bind_of_ok (peek_facing hu)]
    exact .fail _ _
  refine hskip.bind_ok fun hu => ?_
  rw [separator, bind_of_ok (peek_facing hu)]
  dsimp only [List.head?_cons]
  by_cases hsep : b = ascii ',' ∨ b = ascii ';'
  · rw [if_pos hsep, if_pos hsep, bind_of_ok (advance_cons hu)]
    exact .ok _ (suffix_tail hu)
  rw [if_neg hsep, if_neg hsep]
  by_cases hend : b = ascii '\x7d'
  · rw [if_pos hend, if_pos hend, bind_of_ok (advance_cons hu)]
    exact .ok _ (suffix_tail hu)
  · rw [if_neg hend, if_neg hend]
    exact .fail _ _

omit hitem in
theorem field_closed_tracks {hu : u.length ≤ s.length} (hs : s <:+ env.source)
    (hk : Literal.skipTrivia s = .ok ⟨u, hu⟩) (hc : strip? [ascii '\x7d'] u = some r) (next : Int) :
    Tracks env d (field item t next env (env.facing s d)) (.ok (.inr t, r)) := by
  have hskip := skipTrivia_tracks (d := d) hs
  have hsplit : u = ascii '\x7d' :: r := strip?_eq_some.1 hc
  rw [skipped, hk] at hskip
  refine hskip.bind_ok fun hu => ?_
  dsimp only at hu ⊢
  rw [hsplit] at hu ⊢
  rw [bind_of_ok (peek_facing hu), List.head?_cons, if_pos rfl, bind_of_ok (advance_cons hu)]
  exact .ok _ (suffix_tail hu)

theorem field_entry_tracks {hu : u.length ≤ s.length} (hs : s <:+ env.source)
    (hn : n + s.length ≤ env.source.length) (hk : Literal.skipTrivia s = .ok ⟨u, hu⟩)
    (hc : strip? [ascii '\x7d'] u = none) :
    Tracks env d (field item t n env (env.facing s d))
      ((assigned t n (Literal.entry reader u)).bind fun p => separated p.1.1 p.1.2 p.2) := by
  have hskip := skipTrivia_tracks (d := d) hs
  rw [skipped, hk] at hskip
  refine hskip.bind_ok fun hu => ?_
  have hopen : ¬ u.head? = some (ascii '\x7d') := by
    intro h
    obtain ⟨r, rfl⟩ := List.head?_eq_some_iff.1 h
    exact strip?_eq_none.1 hc ⟨r, rfl⟩
  have hentry := entry_tracks (t := t) hitem hu (by omega : n + u.length ≤ env.source.length)
  rw [bind_of_ok (peek_facing hu), if_neg hopen]
  rcases he : assigned t n (Literal.entry reader u) with e | ⟨⟨t', next⟩, r⟩ <;> rw [he] at hentry
  · exact hentry.bind_error
  · exact hentry.bind_ok fun hr => separator_tracks hr next

theorem field_read_tracks {hu : u.length ≤ s.length} {key : Option Key} {value : Value}
    {hr : r.length < u.length} (hs : s <:+ env.source) (hn : n + s.length ≤ env.source.length)
    (hk : Literal.skipTrivia s = .ok ⟨u, hu⟩) (hc : strip? [ascii '\x7d'] u = none)
    (he : Literal.entry reader u = .ok ⟨(key, value), r, hr⟩) :
    Tracks env d (field item t n env (env.facing s d))
      (separated (t.insert (key.getD (.position n)) value)
        (if key.isNone then (n : Int) + 1 else n) r) := by
  have hfield := field_entry_tracks (t := t) hitem hs hn hk hc
  rw [he] at hfield
  exact hfield

/-- By induction on the fields. Each position that is given out stands for a byte at least. -/
theorem entries_tracks (hs : s <:+ env.source) (hn : n + s.length ≤ env.source.length) :
    Tracks env d (loop (fun (t, next) => field item t next) (t, (n : Int)) env (env.facing s d))
      (parsed (Literal.entries reader t n s)) := by
  fun_induction Literal.entries reader t n s with
  | case1 t n s e hk =>
    have hskip := skipTrivia_tracks (d := d) hs
    rw [skipped, hk] at hskip
    exact Tracks.loop_error hskip.bind_error
  | case2 t n s u hu hk r hc => exact Tracks.loop_done (field_closed_tracks hs hk hc n)
  | case3 t n s u hu hk hc e he =>
    have hfield := field_entry_tracks (t := t) hitem hs hn hk hc
    rw [he] at hfield
    exact Tracks.loop_error hfield
  | case4 t n s u hu hk hc key value r hr he e hk' =>
    have hfield := field_read_tracks (t := t) hitem hs hn hk hc he
    rw [separated, hk'] at hfield
    exact Tracks.loop_error hfield
  | case5 t n s u hu hk hc key value r hr he _ hk' =>
    have hfield := field_read_tracks (t := t) hitem hs hn hk hc he
    rw [separated, hk'] at hfield
    exact Tracks.loop_error hfield
  | case6 t n s u hu hk hc key value r hr he t' n' b v hv hk' hlt hsep ih =>
    have hfield := field_read_tracks (t := t) hitem hs hn hk hc he
    rw [separated, hk'] at hfield
    dsimp only at hfield
    -- The machine counts in 64 bits, which the bytes of the text never fill.
    have hcount : (if key.isNone = true then (n : Int) + 1 else n) = (n' : Nat) := by
      dsimp only [n']
      split <;> rfl
    have hle : n' ≤ n + 1 := by
      dsimp only [n']
      split <;> omega
    rw [if_pos hsep, hcount] at hfield
    refine Tracks.loop_next hs hlt hfield fun hv => ?_
    have hmore := ih hv (by omega)
    cases hx : Literal.entries reader t' n' v <;> rwa [hx] at hmore
  | case7 t n s u hu hk hc key value r hr he t' v hv hk' hlt hsep =>
    have hfield := field_read_tracks (t := t) hitem hs hn hk hc he
    rw [separated, hk'] at hfield
    dsimp only at hfield
    rw [if_neg hsep, if_pos rfl] at hfield
    exact Tracks.loop_done hfield
  | case8 t n s u hu hk hc key value r hr he b v hv hk' hlt hsep hend =>
    have hfield := field_read_tracks (t := t) hitem hs hn hk hc he
    rw [separated, hk'] at hfield
    dsimp only at hfield
    rw [if_neg hsep, if_neg hend] at hfield
    exact Tracks.loop_error hfield

end Items

theorem table_deep_tracks (item : Scan Value) (s : List UInt8) (hd : env.limit ≤ d) :
    Tracks env d (table item env (env.facing s d)) (.error ⟨.tooDeep env.limit, s.length⟩) := by
  rw [table, bind_limit, bind_depth, depth_facing, if_pos hd, bind_limit]
  exact .fail _ _

theorem table_tracks {item : Scan Value} {reader : Parser Value} (hs : b :: r <:+ env.source)
    (hd : d < env.limit) (hitem : ∀ s, s <:+ env.source →
      Tracks env (d + 1) (item env (env.facing s (d + 1))) (parsed (reader s))) :
    Tracks env d (table item env (env.facing (b :: r) d)) (parsed (tableOf reader (b :: r))) := by
  have hlimit := env.limit_lt
  have hroom : d < 2 ^ 64 := hd.trans hlimit
  have hdeeper : d + 1 < 2 ^ 64 := by omega
  have hback : ((d + 1 : Nat) : Int) - 1 = d := by omega
  have hone : 1 + r.length ≤ env.source.length := by
    have hle := hs.length_le
    rwa [List.length_cons, Nat.add_comm] at hle
  have hentries := entries_tracks (t := []) hitem (suffix_tail hs) hone
  rw [table, bind_limit, bind_depth, depth_facing, if_neg (Nat.not_le.2 hd), bind_depth,
    depth_facing, bind_of_ok (size_of_lt hdeeper), bind_of_ok (setDepth_facing (b :: r) d (d + 1)),
    bind_of_ok (advance_cons hs), tableOf]
  cases hx : Literal.entries reader [] 1 r with
  | error e =>
    rw [hx] at hentries
    exact hentries.bind_error
  | ok p =>
    rw [hx] at hentries
    refine hentries.bind_ok fun hr => ?_
    rw [bind_depth, depth_facing, hback, bind_of_ok (natural_of_lt rfl hroom),
      bind_of_ok (setDepth_facing _ _ _)]
    exact .ok _ hr

end MobDebug.Literal.Cursor
