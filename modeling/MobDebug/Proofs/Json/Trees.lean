import MobDebug.Proofs.Json.Tokens

/-! What is written of a tree is read back as the tree, but for the numbers that JSON has none
for. -/
namespace MobDebug.Json

mutual

/-- What can be written of a tree: null stands for what JSON has no number for. -/
def written : Json → Json
  | .float .nan => .null
  | .float (.infinite _) => .null
  | .arr elements => .arr (writtenElements elements)
  | .obj members => .obj (writtenMembers members)
  | j => j

def writtenElements : List Json → List Json
  | [] => []
  | j :: rest => j.written :: writtenElements rest

def writtenMembers : List (String × Json) → List (String × Json)
  | [] => []
  | (name, j) :: rest => (name, j.written) :: writtenMembers rest

end

variable {c : Char} {cs rest : List Char} {n : Nat}

theorem skipSpace_cons (hc : isSpace c = false) (cs : List Char) :
    skipSpace (c :: cs) = c :: cs := by
  rw [skipSpace, List.dropWhile_cons, hc, if_neg Bool.false_ne_true]

/-- What a null, a truth value or a number begins with. -/
def OpensScalar (c : Char) : Prop :=
  c.isDigit ∨ c = '-' ∨ c = 'n' ∨ c = 't' ∨ c = 'f'

theorem OpensScalar.plain (h : OpensScalar c) :
    isSpace c = false ∧ c ≠ ']' ∧ c ≠ '"' ∧ c ≠ '[' ∧ c ≠ '\x7b' := by
  have hdigit {d : Char} (hd : d.isDigit = false) (hc : c.isDigit) : c ≠ d := by
    rintro rfl
    exact absurd (hd.symm.trans hc) nofun
  rcases h with hc | rfl | rfl | rfl | rfl
  · simp only [isSpace, Bool.or_eq_false_iff, beq_eq_false_iff_ne]
    exact ⟨⟨⟨⟨hdigit rfl hc, hdigit rfl hc⟩, hdigit rfl hc⟩, hdigit rfl hc⟩, hdigit rfl hc,
      hdigit rfl hc, hdigit rfl hc, hdigit rfl hc⟩
  all_goals decide

theorem readTree?_scalar (h : OpensScalar c) :
    readTree? (n + 1) (c :: cs) = readScalar? (c :: cs) := by
  obtain ⟨hspace, -, hquote, hbracket, hbrace⟩ := h.plain
  rw [readTree?, skipSpace_cons hspace]
  split
  · next h => exact absurd (List.cons.inj h).1 hquote
  · next h => exact absurd (List.cons.inj h).1 hbracket
  · next h => exact absurd (List.cons.inj h).1 hbrace
  · rfl

theorem readScalar?_numeric (h : Numeric cs) :
    readScalar? (cs ++ rest) = readNumber? (cs ++ rest) := by
  obtain ⟨c, ds, rfl, hc⟩ := h
  have hne {d : Char} (hd : d.isDigit = false) (hminus : d ≠ '-') : c ≠ d := by
    rintro rfl
    exact hc.elim (fun hc => absurd (hd.symm.trans hc) nofun) hminus
  unfold readScalar?
  split
  · next h => exact absurd (List.cons.inj h).1 (hne rfl (by decide))
  · next h => exact absurd (List.cons.inj h).1 (hne rfl (by decide))
  · next h => exact absurd (List.cons.inj h).1 (hne rfl (by decide))
  · rfl

/-- A tree without other trees in it and that is no string. -/
def IsScalar : Json → Prop
  | .str _ | .arr _ | .obj _ => False
  | _ => True

theorem render_opens {j : Json} (h : j.IsScalar) :
    ∃ c cs, j.render.toList = c :: cs ∧ OpensScalar c := by
  have hnumeric {cs : List Char} (h : Numeric cs) : ∃ c ds, cs = c :: ds ∧ OpensScalar c := by
    obtain ⟨c, ds, rfl, hc | rfl⟩ := h
    · exact ⟨c, ds, rfl, .inl hc⟩
    · exact ⟨_, ds, rfl, .inr (.inl rfl)⟩
  have hnull {j : Json} (h : j.render = "null") :
      ∃ c ds, j.render.toList = c :: ds ∧ OpensScalar c :=
    ⟨'n', "ull".toList, by rw [h]; rfl, .inr (.inr (.inl rfl))⟩
  cases j with
  | null => exact hnull rfl
  | bool b =>
    cases b with
    | true => exact ⟨'t', _, rfl, .inr (.inr (.inr (.inl rfl)))⟩
    | false => exact ⟨'f', _, rfl, .inr (.inr (.inr (.inr rfl)))⟩
  | int i => exact hnumeric (numeric_int i)
  | float x =>
    cases x with
    | finite f => exact hnumeric (numeric_float f)
    | nan | infinite => exact hnull (by rw [render, renderFloat])
  | str | arr | obj => cases h

theorem readScalar?_render {j : Json} (h : j.IsScalar) (hr : Ends rest) :
    readScalar? (j.render.toList ++ rest) = some (j.written, rest) := by
  cases j with
  | null => rfl
  | bool b => cases b <;> rfl
  | int i => exact (readScalar?_numeric (numeric_int i)).trans (readNumber?_int i hr)
  | float x =>
    cases x with
    | finite f => exact (readScalar?_numeric (numeric_float f)).trans (readNumber?_float f hr)
    | nan | infinite =>
      rw [render, renderFloat, written]
      rfl
  | str | arr | obj => cases h

theorem toList_render_arr (elements : List Json) :
    (arr elements).render.toList = '[' :: ((renderElements elements).toList ++ [']']) := by
  rw [render, String.toList_append, String.toList_append]
  rfl

theorem toList_render_obj (members : List (String × Json)) :
    (obj members).render.toList = '\x7b' :: ((renderMembers members).toList ++ ['\x7d']) := by
  rw [render, String.toList_append, String.toList_append]
  rfl

/-- No tree begins with a space or a bracket that closes. -/
theorem render_cons (j : Json) :
    ∃ c cs, j.render.toList = c :: cs ∧ isSpace c = false ∧ c ≠ ']' := by
  have hscalar (h : j.IsScalar) :
      ∃ c cs, j.render.toList = c :: cs ∧ isSpace c = false ∧ c ≠ ']' := by
    obtain ⟨c, cs, hj, hc⟩ := render_opens h
    exact ⟨c, cs, hj, hc.plain.1, hc.plain.2.1⟩
  cases j with
  | str s => exact ⟨'"', _, toList_renderString s, by decide⟩
  | arr elements => exact ⟨'[', _, toList_render_arr elements, by decide⟩
  | obj members => exact ⟨'\x7b', _, toList_render_obj members, by decide⟩
  | null | bool | int | float => exact hscalar trivial

theorem toList_renderElements (j : Json) (js : List Json) : (renderElements (j :: js)).toList =
    j.render.toList ++ (if js = [] then [] else ',' :: (renderElements js).toList) := by
  cases js with
  | nil => simp [renderElements]
  | cons => simp [renderElements]

theorem toList_renderMembers (name : String) (j : Json) (ms : List (String × Json)) :
    (renderMembers ((name, j) :: ms)).toList = (renderString name).toList ++ ':' ::
      (j.render.toList ++ (if ms = [] then [] else ',' :: (renderMembers ms).toList)) := by
  cases ms with
  | nil => simp [renderMembers]
  | cons => simp [renderMembers]

/-- A string in quotes is longer than the string by the quotes at least. -/
theorem length_renderString (s : String) :
    s.toList.length + 2 ≤ (renderString s).toList.length := by
  have hescape (c : Char) : 1 ≤ (escapeChar c).toList.length := by
    rw [Nat.one_le_iff_ne_zero, ne_eq, List.length_eq_zero_iff]
    intro he
    have h := readChar?_escape c []
    rw [he] at h
    cases h
  have hchars (cs : List Char) :
      cs.length ≤ (cs.flatMap fun c => (escapeChar c).toList).length := by
    induction cs with
    | nil => exact Nat.le_refl 0
    | cons c cs ih =>
      rw [List.flatMap_cons, List.length_append, List.length_cons]
      have := hescape c
      omega
  rw [toList_renderString, List.length_cons, List.length_append, List.length_singleton]
  have := hchars s.toList
  omega

theorem length_render_pos (j : Json) : 0 < j.render.toList.length := by
  obtain ⟨c, cs, h, -⟩ := j.render_cons
  rw [h]
  exact Nat.succ_pos _

theorem readChars?_renderString {s : String} (h : s.toList.length < n) (rest : List Char) :
    ∃ cs, (renderString s).toList ++ rest = '"' :: cs ∧
      readChars? n cs = some (s.toList, rest) := by
  refine ⟨_, ?_, readChars?_escaped h rest⟩
  rw [toList_renderString]
  simp

/-- Trees, elements and members of this length are read back, whatever stands behind. -/
structure ReadsBack (n : Nat) : Prop where
  tree (j : Json) (rest : List Char) (hn : j.render.toList.length ≤ n) (hr : Ends rest) :
    readTree? n (j.render.toList ++ rest) = some (j.written, rest)
  elements (js : List Json) (rest : List Char) (hne : js ≠ [])
    (hn : (renderElements js).toList.length < n) :
    readElements? n ((renderElements js).toList ++ ']' :: rest) = some (writtenElements js, rest)
  members (ms : List (String × Json)) (rest : List Char) (hne : ms ≠ [])
    (hn : (renderMembers ms).toList.length < n) :
    readMembers? n ((renderMembers ms).toList ++ '\x7d' :: rest) = some (writtenMembers ms, rest)

theorem ReadsBack.elements_succ (h : ReadsBack n) {js : List Json} (hne : js ≠ [])
    (hn : (renderElements js).toList.length < n + 1) (rest : List Char) :
    readElements? (n + 1) ((renderElements js).toList ++ ']' :: rest) =
      some (writtenElements js, rest) := by
  obtain ⟨j, js, rfl⟩ := List.exists_cons_of_ne_nil hne
  rw [toList_renderElements] at hn ⊢
  rw [List.length_append] at hn
  rw [List.append_assoc, readElements?]
  by_cases hjs : js = []
  · subst hjs
    rw [if_pos rfl, List.nil_append, h.tree j _ (by omega) (ends_cons (by decide) rest)]
    rfl
  · rw [if_neg hjs] at hn ⊢
    rw [List.length_cons] at hn
    rw [List.cons_append, h.tree j _ (by omega) (ends_cons (by decide) _)]
    have hrest := h.elements js rest hjs (by omega)
    simp only [Option.bind_eq_bind, Option.bind_some, skipSpace_cons (c := ',') rfl, hrest]
    rw [writtenElements]

theorem ReadsBack.members_succ (h : ReadsBack n) {ms : List (String × Json)} (hne : ms ≠ [])
    (hn : (renderMembers ms).toList.length < n + 1) (rest : List Char) :
    readMembers? (n + 1) ((renderMembers ms).toList ++ '\x7d' :: rest) =
      some (writtenMembers ms, rest) := by
  obtain ⟨⟨name, j⟩, ms, rfl⟩ := List.exists_cons_of_ne_nil hne
  rw [toList_renderMembers] at hn ⊢
  rw [List.length_append, List.length_cons, List.length_append] at hn
  have hname := length_renderString name
  rw [List.append_assoc, List.cons_append, List.append_assoc]
  by_cases hms : ms = []
  · subst hms
    rw [if_pos rfl, List.nil_append]
    obtain ⟨cs, hcs, hread⟩ := readChars?_renderString (n := n) (s := name) (by omega)
      (':' :: (j.render.toList ++ '\x7d' :: rest))
    rw [hcs, readMembers?, skipSpace_cons rfl]
    simp only [hread, Option.bind_eq_bind, Option.bind_some, skipSpace_cons (c := ':') rfl,
      h.tree j _ (by omega) (ends_cons (c := '\x7d') (by decide) rest),
      skipSpace_cons (c := '\x7d') rfl, String.ofList_toList]
    rfl
  · rw [if_neg hms] at hn ⊢
    rw [List.length_cons] at hn
    rw [List.cons_append]
    obtain ⟨cs, hcs, hread⟩ := readChars?_renderString (n := n) (s := name) (by omega)
      (':' :: (j.render.toList ++ ',' :: ((renderMembers ms).toList ++ '\x7d' :: rest)))
    have hrest := h.members ms rest hms (by omega)
    rw [hcs, readMembers?, skipSpace_cons rfl]
    simp only [hread, Option.bind_eq_bind, Option.bind_some, skipSpace_cons (c := ':') rfl,
      h.tree j _ (by omega) (ends_cons (c := ',') (by decide) _), skipSpace_cons (c := ',') rfl,
      hrest, String.ofList_toList]
    rw [writtenMembers]

theorem readTree?_elements (hspace : isSpace c = false) (hbracket : c ≠ ']') :
    readTree? (n + 1) ('[' :: c :: cs) =
      (readElements? n (c :: cs)).map fun (elements, rest) => (.arr elements, rest) := by
  rw [readTree?, skipSpace_cons rfl]
  simp only [skipSpace_cons hspace]
  split
  · next h => exact absurd (List.cons.inj h).1 hbracket
  · rfl

theorem readTree?_members : readTree? (n + 1) ('\x7b' :: '"' :: cs) =
    (readMembers? n ('"' :: cs)).map fun (members, rest) => (.obj members, rest) := by
  rw [readTree?, skipSpace_cons rfl]
  rfl

theorem ReadsBack.tree_succ (h : ReadsBack n) (j : Json) (hn : j.render.toList.length ≤ n + 1)
    (hr : Ends rest) : readTree? (n + 1) (j.render.toList ++ rest) = some (j.written, rest) := by
  -- a scalar is told by its first character
  have hscalar (hj : j.IsScalar) :
      readTree? (n + 1) (j.render.toList ++ rest) = some (j.written, rest) := by
    obtain ⟨c, cs, he, hc⟩ := render_opens hj
    have hread := readScalar?_render hj hr
    rw [he, List.cons_append] at hread ⊢
    exact (readTree?_scalar hc).trans hread
  cases j with
  | null | bool | int | float => exact hscalar trivial
  | str s =>
    have hlength := length_renderString s
    rw [render] at hn ⊢
    obtain ⟨cs, hcs, hread⟩ := readChars?_renderString (n := n) (s := s) (by omega) rest
    rw [hcs, readTree?, skipSpace_cons rfl]
    simp only [hread, Option.map_some, String.ofList_toList, written]
  | arr js =>
    rw [toList_render_arr] at hn ⊢
    rw [List.length_cons, List.length_append, List.length_singleton] at hn
    rw [List.cons_append, List.append_assoc, written]
    by_cases hne : js = []
    · subst hne
      rfl
    · have hread := h.elements _ rest hne (by omega)
      obtain ⟨j, js, rfl⟩ := List.exists_cons_of_ne_nil hne
      obtain ⟨c, cs, hj, hspace, hbracket⟩ := j.render_cons
      rw [toList_renderElements, hj, List.cons_append, List.cons_append] at hread ⊢
      -- the first element opens with neither a space nor a bracket that closes
      rw [List.singleton_append, readTree?_elements hspace hbracket, hread]
      rfl
  | obj ms =>
    rw [toList_render_obj] at hn ⊢
    rw [List.length_cons, List.length_append, List.length_singleton] at hn
    rw [List.cons_append, List.append_assoc, written]
    by_cases hne : ms = []
    · subst hne
      rfl
    · have hread := h.members _ rest hne (by omega)
      obtain ⟨⟨name, j⟩, ms, rfl⟩ := List.exists_cons_of_ne_nil hne
      rw [toList_renderMembers, toList_renderString, List.cons_append, List.cons_append] at hread ⊢
      rw [List.singleton_append, readTree?_members, hread]
      rfl

theorem readsBack (n : Nat) : ReadsBack n := by
  induction n with
  | zero =>
    refine ⟨fun j rest hn => ?_, fun _ _ _ hn => absurd hn (Nat.not_lt_zero _),
      fun _ _ _ hn => absurd hn (Nat.not_lt_zero _)⟩
    exact absurd (Nat.lt_of_lt_of_le j.length_render_pos hn) (Nat.lt_irrefl 0)
  | succ n ih =>
    exact ⟨fun j rest hn hr => ih.tree_succ j hn hr,
      fun js rest hne hn => ih.elements_succ hne hn rest,
      fun ms rest hne hn => ih.members_succ hne hn rest⟩

/-- What is written of a tree is read back. -/
theorem read?_render (j : Json) : read? j.render = some j.written := by
  have hread := (readsBack (j.render.length + 1)).tree j []
    (by rw [String.length_toList]; exact Nat.le_succ _) nofun
  rw [List.append_nil] at hread
  rw [read?, hread]
  rfl

end MobDebug.Json
