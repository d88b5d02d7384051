import MobDebug.Literal.Tree
import MobDebug.Proofs.Json.Trees

/-! The JSON text of a value is read as one tree, and the shape of the value says which. -/
namespace MobDebug.Literal

variable {n : Nat} {t : Table}

/-- The keys of a table are its positions, in order. -/
def Sequential (t : Table) : Prop :=
  t.map Prod.fst = (List.range' 1 t.length).map Key.position

/-- The tree that shows a value. A table is an array if its keys are its positions in order, unless
it is empty; else it is an object with a member for each entry in order. -/
inductive Shows : Value → Json → Prop
  | nil : Shows .nil .null
  | nan : Shows (.number (.float .nan)) .null
  | infinite (negative : Bool) : Shows (.number (.float (.infinite negative))) .null
  | bool (b : Bool) : Shows (.bool b) (.bool b)
  | int (i : Int64) : Shows (.number (.int i)) (.int i.toInt)
  | float (f : Double.Finite) : Shows (.number (.float (.finite f))) (.float (.finite f))
  | str (s : String) : Shows (.str s) (.str s)
  | array {entries : Table} {js : List Json} (hne : entries ≠ []) (hk : Sequential entries)
      (h : List.Forall₂ (fun e j => Shows e.2 j) entries js) : Shows (.table entries) (.arr js)
  | object {entries : Table} {js : List Json} (hk : ¬ (entries ≠ [] ∧ Sequential entries))
      (h : List.Forall₂ (fun e j => Shows e.2 j) entries js) :
      Shows (.table entries) (.obj ((entries.map fun e => e.1.label).zip js))
  | reference (label : String) : Shows (.reference label) (.obj [("$ref", .str label)])
  | function : Shows .function (.str "function")

/-- By induction on the entries, for every first position. -/
theorem isSequenceFrom_iff :
    t.isSequenceFrom n ↔ t.map Prod.fst = (List.range' n t.length).map Key.position := by
  induction t generalizing n with
  | nil => simp [Table.isSequenceFrom]
  | cons e t ih => simp [Table.isSequenceFrom, List.range'_succ, ih]

theorem isArray_iff :
    (!t.isEmpty && t.isSequenceFrom 1) = true ↔ t ≠ [] ∧ Sequential t := by
  rw [Bool.and_eq_true, isSequenceFrom_iff, Sequential]
  simp

theorem writtenMembers_toJson (t : Table) :
    Json.writtenMembers (Value.membersToJson t) =
      (t.map fun e => e.1.label).zip (Json.writtenElements (Value.elementsToJson t)) := by
  induction t with
  | nil => rfl
  | cons e t ih =>
    simp only [Value.membersToJson, Value.elementsToJson, Json.writtenMembers, Json.writtenElements,
      List.map_cons, List.zip_cons_cons, ih]

theorem written_table (t : Table) : (Value.table t).toJson.written =
    if (!t.isEmpty && t.isSequenceFrom 1) = true then
      .arr (Json.writtenElements (Value.elementsToJson t))
    else .obj ((t.map fun e => e.1.label).zip (Json.writtenElements (Value.elementsToJson t))) := by
  rw [Value.toJson]
  split
  · rw [Json.written]
  · rw [Json.written, writtenMembers_toJson]

/-- If the elements of a table are shown by one list of trees, the table is shown by one tree. -/
theorem shows_table {j : Json} {js : List Json}
    (h : ∀ ks, List.Forall₂ (fun e j => Shows e.2 j) t ks ↔ ks = js) :
    Shows (.table t) j ↔ j = if (!t.isEmpty && t.isSequenceFrom 1) = true then .arr js
      else .obj ((t.map fun e => e.1.label).zip js) := by
  split
  · next hseq =>
    obtain ⟨hne, hk⟩ := isArray_iff.1 hseq
    constructor
    · intro hs
      cases hs with
      | array _ _ hs => rw [(h _).1 hs]
      | object hn _ => exact absurd ⟨hne, hk⟩ hn
    · rintro rfl
      exact .array hne hk ((h js).2 rfl)
  · next hseq =>
    have hn := mt isArray_iff.2 hseq
    constructor
    · intro hs
      cases hs with
      | array hne hk _ => exact absurd ⟨hne, hk⟩ hn
      | object _ hs => rw [(h _).1 hs]
    · rintro rfl
      exact .object hn ((h js).2 rfl)

mutual

theorem shows_iff : (v : Value) → ∀ j, Shows v j ↔ j = v.toJson.written
  | .nil | .bool _ | .number (.int _) | .number (.float .nan) | .number (.float (.infinite _))
  | .number (.float (.finite _)) | .str _ | .reference _ | .function => by
    intro j
    constructor
    · rintro ⟨⟩
      rfl
    · rintro rfl
      constructor
  | .table t => by
    intro j
    rw [written_table]
    exact shows_table (showsElements_iff t)

theorem showsElements_iff : (t : List (Key × Value)) → ∀ js,
    List.Forall₂ (fun e j => Shows e.2 j) t js ↔
      js = Json.writtenElements (Value.elementsToJson t)
  | [] => fun _ => List.forall₂_nil_left_iff
  | (k, v) :: t => by
    intro js
    rw [List.forall₂_cons_left_iff, Value.elementsToJson, Json.writtenElements]
    simp only [shows_iff v, showsElements_iff t]
    constructor
    · rintro ⟨j, js, rfl, rfl, rfl⟩
      rfl
    · rintro rfl
      exact ⟨_, _, rfl, rfl, rfl⟩

end

/-- The text of a value is well-formed, and it is read as the only tree that shows the value. -/
theorem read_rendered_shows (v : Value) :
    ∃ j, Json.read? v.toJson.render = some j ∧ ∀ j', Shows v j' ↔ j' = j :=
  ⟨v.toJson.written, Json.read?_render _, shows_iff v⟩

/-- Positions out of order are an object, though they count as a sequence. -/
example : let t : Table := [(.position 2, .str "b"), (.position 1, .str "a")]
    (Value.table t).toJson.render = "\x7b\"2\":\"b\",\"1\":\"a\"\x7d" ∧ t.sequenceLength = 2 :=
  ⟨rfl, rfl⟩

end MobDebug.Literal
