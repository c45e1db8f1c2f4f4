import XmlTemplate.Proofs.Host.Json
import XmlTemplate.Proofs.Render.Unfolding

/-!
# Entries however they are held

A repetition over entries sees nothing of an object but the keys and values that it presents: those
of its pairs, or those of its items if every item is a pair itself. A map, a record and a list of
keys with their values present the same ones, so an element that is repeated for them does the same.

Results:
1. `Presents.render_eq`: a repetition runs one round for each presented entry.
2. `presents_map`, `presents_record`, `presents_keyAndValue`: what values present.
3. `render_entries_alike`: a map, a record and a list of pairs are rendered alike, errors included.
-/

namespace XmlTemplate.Render

open Table (mapValues)

/-! ## Presented entries -/

/-- The keys and values that an object presents to a repetition over entries. -/
inductive Presents (object : Object) : List (Object × Object) → Prop
  | pairs : object.capabilities.pairs = true → Presents object object.pairs
  | items {entries : List (Object × Object)} :
      object.capabilities.pairs = false → object.capabilities.sequence = true →
      object.items.map components? = entries.map some → Presents object entries

variable {object root : Object} {entries : List (Object × Object)} {source : Expr}

theorem Rounds.ofPairs_eq_all {items : List Object}
    (paired : items.map components? = entries.map some) (failure : LookupError) :
    ofPairs failure items = .all entries := by
  induction items generalizing entries with
  | nil =>
    obtain rfl : entries = [] := by simpa using paired.symm
    rfl
  | cons item items ih =>
    obtain ⟨entry, others, rfl, first, rest⟩ := List.map_eq_cons_iff.mp paired.symm
    rw [ofPairs, ← first, ih rest.symm]
    rfl

theorem Presents.ofEntries_eq (presents : Presents object entries) (source : Expr) :
    Rounds.ofEntries source object = .all entries := by
  cases presents with
  | pairs pairs => simp only [Rounds.ofEntries, pairs, if_true]
  | items pairs sequence paired =>
    simp only [Rounds.ofEntries, pairs, sequence, Bool.false_eq_true, if_true, if_false]
    exact Rounds.ofPairs_eq_all paired _

/-- An element that is repeated for entries runs one round for each entry that is presented, in
order. Its head reads the key and its children read the value; nothing reads the object itself. -/
theorem Presents.render_eq (presents : Presents object entries)
    (resolved : resolve source root = .ok object) (head : Head) (children : List Node) :
    render (.element (head.repeated (.entries source)) children) root =
      entries.forM fun entry => renderEntry head children entry.1 entry.2 := by
  show forEach (some (.entries source)) root
    (fun key value => emit head key (renderAll children value)) = _
  rw [forEach_eq_run, rounds, resolved]
  simp only [presents.ofEntries_eq, Rounds.run_all, renderEntry_eq_emit]

/-! ## What values present -/

/-- A key with its value, as a list of two items. -/
def keyAndValue (entry : String × Value) : Value := .list [.string entry.1, entry.2]

/-- The entries as repetitions see them. -/
def presented (entries : List (String × Value)) : List (Object × Object) :=
  entries.map fun entry => (.plain entry.1, entry.2.toObject)

section
variable (entries : List (String × Value))

theorem namedPairs_namedObjects :
    Object.namedPairs (Value.namedObjects entries) = presented entries := by
  simp [Value.namedObjects_eq_mapValues, Object.namedPairs, mapValues, presented]

theorem presents_map : Presents (Value.map entries).toObject (presented entries) := by
  rw [← namedPairs_namedObjects]
  exact .pairs rfl

theorem presents_record : Presents (Value.record entries).toObject (presented entries) := by
  rw [← namedPairs_namedObjects]
  exact .pairs rfl

/-- The key of a pair is the text of a string, which is the same object as the key of a map. -/
theorem components?_keyAndValue (entry : String × Value) :
    components? (keyAndValue entry).toObject = some (.plain entry.1, entry.2.toObject) := rfl

theorem presents_keyAndValue :
    Presents (Value.list (entries.map keyAndValue)).toObject (presented entries) := by
  refine .items rfl rfl ?_
  show (Value.toObjects (entries.map keyAndValue)).map components? = _
  simp [Value.toObjects_eq_map, presented, components?_keyAndValue]
end

/-- An element that is repeated for the entries of a map, of a record with these fields, or of a
list of these keys with their values writes the same text into a sink and has the same result,
errors included: that of a round for each entry in order, whatever the head, the children and the
values are. -/
theorem render_entries_alike (head : Head) (children : List Node) (source : Expr)
    (entries : List (String × Value)) {withMap withRecord withList : Object}
    (map : resolve source withMap = .ok (Value.map entries).toObject)
    (record : resolve source withRecord = .ok (Value.record entries).toObject)
    (list : resolve source withList = .ok (Value.list (entries.map keyAndValue)).toObject)
    (sink : Sink) :
    let element := Node.element (head.repeated (.entries source)) children
    let run := (entries.forM fun entry =>
      renderEntry head children (.plain entry.1) entry.2.toObject).start sink
    (render element withMap).start sink = run ∧ (render element withRecord).start sink = run ∧
      (render element withList).start sink = run := by
  intro element run
  have inTurn {object root : Object} (resolved : resolve source root = .ok object)
      (presents : Presents object (presented entries)) : (render element root).start sink = run := by
    rw [presents.render_eq resolved head children, presented, List.forM_eq_forM, List.forM_map]
    rfl
  exact ⟨inTurn map (presents_map entries), inTurn record (presents_record entries),
    inTurn list (presents_keyAndValue entries)⟩

/-- Keys in attribute values, and a second value that has no field. The current objects are a map
and a record. -/
theorem render_entries_alike_missing :
    let head : Head := ⟨.literal "e", none, [⟨.literal "key", .current⟩]⟩
    let children : List Node := [.value (.chain .current [.key "x"])]
    let source : Expr := .chain .current [.key "data"]
    let entries : List (String × Value) := [("<a", .record [("x", .number "1")]), ("b", .string "x")]
    let withMap := (Value.map [("data", .map entries)]).toObject
    let withRecord := (Value.record [("x", .null), ("data", .record entries)]).toObject
    let withList := (Value.map [("data", .list (entries.map keyAndValue))]).toObject
    let run : Except RenderError Unit × Sink := (.error (.lookup ⟨"?", "x", .noAccess⟩),
      .unbounded "<e key=\"&lt;a\">1</e><e key=\"b\">")
    let element := Node.element (head.repeated (.entries source)) children
    (resolve source withMap = .ok (Value.map entries).toObject ∧
      resolve source withRecord = .ok (Value.record entries).toObject ∧
      resolve source withList = .ok (Value.list (entries.map keyAndValue)).toObject) ∧
    (render element withMap).start (.unbounded "") = run ∧
      (render element withRecord).start (.unbounded "") = run ∧
      (render element withList).start (.unbounded "") = run := by
  intro head children source entries withMap withRecord withList run element
  have map : resolve source withMap = .ok (Value.map entries).toObject := rfl
  have record : resolve source withRecord = .ok (Value.record entries).toObject := rfl
  have list : resolve source withList = .ok (Value.list (entries.map keyAndValue)).toObject := rfl
  have rounds : (entries.forM fun entry =>
      renderEntry head children (.plain entry.1) entry.2.toObject).start (.unbounded "") = run := by
    rfl
  have alike := render_entries_alike head children source entries map record list (.unbounded "")
  rw [rounds] at alike
  exact ⟨⟨map, record, list⟩, alike⟩

end XmlTemplate.Render
