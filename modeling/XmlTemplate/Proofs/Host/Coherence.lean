import XmlTemplate.Proofs.Host.Json
import XmlTemplate.Proofs.Value.Tables

/-!
# Coherent objects

An object is asked for its parts in two ways: one by one, under a name or at a position, and all in
a row. It is coherent if the two ways agree and if kinds of access that it does not declare give
nothing. Every kind of data that rendering accepts gives such an object, and so do the parts that
are reached from it, as deep as the data goes. Objects of their own kind may answer as they like and
are left out.

Results:
1. `Built.coherent`: objects that are built from texts, counts, items and entries are coherent.
2. `Built.of_reaches`: what is reached from them is built in the same way.
3. `built_toObject`: data gives objects that are built in this way.
4. `coherent_of_reaches`: everything that is reached in data is coherent, and tables of values have
   each key once.
-/

namespace XmlTemplate

open Table (mapValues)

namespace Object

/-! ## Agreement -/

/-- The pairs of an object have texts as keys, each of them once, and the answers under names are
what is listed with them. -/
def Enumerates (object : Object) (answer : String → Option Object) : Prop :=
  ∃ entries : List (String × Object), object.pairs = namedPairs entries ∧
    (Table.keys entries).Nodup ∧
    ∀ name found, answer name = some found ↔ (name, found) ∈ entries

/-- What an object answers one by one is what it lists, and what it does not declare it does not
have. -/
structure Coherent (object : Object) : Prop where
  item?_eq : object.capabilities.sequence = true → ∀ i, object.item? i = object.items[i]?
  attributes : object.capabilities.attributes = true → object.Enumerates object.attribute?
  keys : object.capabilities.keys = true → object.Enumerates object.key?
  no_attribute : object.capabilities.attributes = false → ∀ name, object.attribute? name = none
  no_key : object.capabilities.keys = false → ∀ name, object.key? name = none
  no_item : object.capabilities.sequence = false → ∀ i, object.item? i = none
  no_items : object.capabilities.sequence = false → object.items = []
  no_pairs : object.capabilities.pairs = false → object.pairs = []

/-- An object is reached from another one by any answers and listings, declared or not. -/
inductive Reaches (root : Object) : Object → Prop
  | here : Reaches root root
  | attributeAt {object found : Object} {name : String} :
      Reaches root object → object.attribute? name = some found → Reaches root found
  | keyAt {object found : Object} {name : String} :
      Reaches root object → object.key? name = some found → Reaches root found
  | itemAt {object found : Object} {i : Nat} :
      Reaches root object → object.item? i = some found → Reaches root found
  | item {object found : Object} :
      Reaches root object → found ∈ object.items → Reaches root found
  | pairKey {object : Object} {entry : Object × Object} :
      Reaches root object → entry ∈ object.pairs → Reaches root entry.1
  | pairValue {object : Object} {entry : Object × Object} :
      Reaches root object → entry ∈ object.pairs → Reaches root entry.2

/-! ## Building objects -/

/-- The objects of texts, counts, items in order and entries with distinct names. -/
inductive Built : Object → Prop
  | plain (text : String) : Built (.plain text)
  | counting (count? : Option Nat) (text : String) : Built (.counting count? text)
  | sequence {items : List Object} (text : String) :
      (∀ item ∈ items, Built item) → Built (.sequence items text)
  | mapping {entries : List (String × Object)} (text : String) :
      (Table.keys entries).Nodup → (∀ entry ∈ entries, Built entry.2) →
      Built (.mapping entries text)
  | record {entries : List (String × Object)} (text : String) :
      (Table.keys entries).Nodup → (∀ entry ∈ entries, Built entry.2) →
      Built (.record entries text)

theorem find_eq_find? (entries : List (String × Object)) (name : String) :
    find entries name = Table.find? entries name := by
  induction entries with
  | nil => rfl
  | cons entry entries ih =>
    rw [find, List.find?_cons, Table.find?]
    by_cases same : entry.1 = name
    · simp [same]
    · simpa [same, beq_eq_false_iff_ne.mpr same, find] using ih

theorem find_eq_some_iff {entries : List (String × Object)} {name : String} {found : Object}
    (distinct : (Table.keys entries).Nodup) :
    find entries name = some found ↔ (name, found) ∈ entries := by
  rw [find_eq_find?, Table.find?_eq_some_iff distinct]

theorem Built.coherent {object : Object} (built : Built object) : object.Coherent := by
  cases built with
  | plain text | counting count? text =>
    exact ⟨nofun, nofun, nofun, fun _ _ => rfl, fun _ _ => rfl, fun _ _ => rfl, fun _ => rfl,
      fun _ => rfl⟩
  | sequence text each =>
    exact ⟨fun _ _ => rfl, nofun, nofun, fun _ _ => rfl, fun _ _ => rfl, nofun, nofun, fun _ => rfl⟩
  | @mapping entries text distinct each =>
    exact ⟨nofun, nofun, fun _ => ⟨entries, rfl, distinct, fun _ _ => find_eq_some_iff distinct⟩,
      fun _ _ => rfl, nofun, fun _ _ => rfl, fun _ => rfl, nofun⟩
  | @record entries text distinct each =>
    exact ⟨nofun, fun _ => ⟨entries, rfl, distinct, fun _ _ => find_eq_some_iff distinct⟩, nofun,
      nofun, fun _ _ => rfl, fun _ _ => rfl, fun _ => rfl, nofun⟩

/-! ## Parts -/

theorem built_of_find {entries : List (String × Object)} (each : ∀ entry ∈ entries, Built entry.2)
    {name : String} {found : Object} (answered : find entries name = some found) : Built found := by
  obtain ⟨entry, first, rfl⟩ := Option.map_eq_some_iff.mp answered
  exact each entry (List.mem_of_find?_eq_some first)

theorem built_of_mem_namedPairs {entries : List (String × Object)}
    (each : ∀ entry ∈ entries, Built entry.2) {entry : Object × Object}
    (member : entry ∈ namedPairs entries) : Built entry.1 ∧ Built entry.2 := by
  obtain ⟨named, inside, rfl⟩ := List.mem_map.mp member
  exact ⟨.plain named.1, each named inside⟩

theorem Built.of_attribute {object found : Object} {name : String} (built : Built object)
    (answered : object.attribute? name = some found) : Built found := by
  cases built with
  | record text distinct each => exact built_of_find each answered
  | plain | counting | sequence | mapping => cases answered

theorem Built.of_key {object found : Object} {name : String} (built : Built object)
    (answered : object.key? name = some found) : Built found := by
  cases built with
  | mapping text distinct each => exact built_of_find each answered
  | plain | counting | sequence | record => cases answered

theorem Built.of_mem_items {object found : Object} (built : Built object)
    (member : found ∈ object.items) : Built found := by
  cases built with
  | sequence text each => exact each found member
  | plain | counting | mapping | record => cases member

theorem Built.of_itemAt {object found : Object} {i : Nat} (built : Built object)
    (answered : object.item? i = some found) : Built found := by
  cases built with
  | sequence text each => exact each found (List.mem_of_getElem? answered)
  | plain | counting | mapping | record => cases answered

theorem Built.of_mem_pairs {object : Object} {entry : Object × Object} (built : Built object)
    (member : entry ∈ object.pairs) : Built entry.1 ∧ Built entry.2 := by
  cases built with
  | mapping text distinct each | record text distinct each =>
    exact built_of_mem_namedPairs each member
  | plain | counting | sequence => cases member

/-- What is reached from an object that is built is built itself. -/
theorem Built.of_reaches {root object : Object} (built : Built root)
    (reaches : Reaches root object) : Built object := by
  induction reaches with
  | here => exact built
  | attributeAt _ answered ih => exact ih.of_attribute answered
  | keyAt _ answered ih => exact ih.of_key answered
  | itemAt _ answered ih => exact ih.of_itemAt answered
  | item _ member ih => exact ih.of_mem_items member
  | pairKey _ member ih => exact (ih.of_mem_pairs member).1
  | pairValue _ member ih => exact (ih.of_mem_pairs member).2

end Object

open Object (Built)

/-! ## Data -/

section
variable {α : Type} {toObject : α → Object}

theorem built_sequence {items : List α} (each : ∀ item ∈ items, Built (toObject item))
    (text : String) : Built (.sequence (items.map toObject) text) :=
  .sequence text (List.forall_mem_map.mpr each)

theorem built_of_mem_mapValues {entries : List (String × α)}
    (each : ∀ entry ∈ entries, Built (toObject entry.2)) :
    ∀ entry ∈ mapValues toObject entries, Built entry.2 := by
  intro object member
  obtain ⟨entry, inside, rfl⟩ := Table.mem_mapValues.mp member
  exact each entry inside

theorem built_mapping {entries : List (String × α)} (distinct : (Table.keys entries).Nodup)
    (each : ∀ entry ∈ entries, Built (toObject entry.2)) (text : String) :
    Built (.mapping (mapValues toObject entries) text) :=
  .mapping text (by rwa [Table.keys_mapValues]) (built_of_mem_mapValues each)

theorem built_record {entries : List (String × α)} (distinct : (Table.keys entries).Nodup)
    (each : ∀ entry ∈ entries, Built (toObject entry.2)) (text : String) :
    Built (.record (mapValues toObject entries) text) :=
  .record text (by rwa [Table.keys_mapValues]) (built_of_mem_mapValues each)
end

theorem Value.built_toObject {data : Value} (held : data.Valid fun _ => True) :
    Built data.toObject := by
  induction held with
  | null | bool value | string text => exact .plain _
  | number _ => exact .counting _ _
  | list each ih =>
    rw [toObject, toObjects_eq_map]
    exact built_sequence ih _
  | map distinct each ih =>
    rw [toObject, namedObjects_eq_mapValues]
    exact built_mapping distinct ih _
  | record distinct each ih =>
    rw [toObject, namedObjects_eq_mapValues]
    exact built_record distinct ih _

/-- Maps and records that are made of any entries have each key once. -/
theorem Value.valid_ofEntries {fine : String → Prop} {entries : List (String × Value)}
    (each : ∀ entry ∈ entries, entry.2.Valid fine) :
    (mapOf entries).Valid fine ∧ (recordOf entries).Valid fine := by
  have distinct := Table.nodup_keys_ofEntries entries
  have kept : ∀ entry ∈ Table.ofEntries entries, entry.2.Valid fine :=
    fun entry member => each entry (Table.mem_of_mem_ofEntries member)
  exact ⟨.map distinct kept, .record distinct kept⟩

theorem Json.built_toObject {data : Json} (held : data.Valid fun _ => True) :
    Built data.toObject := by
  induction held with
  | null | bool value | string text => exact .plain _
  | number _ => exact .counting _ _
  | array each ih =>
    rw [toObject, toObjects_eq_map]
    exact built_sequence ih _
  | object distinct each ih =>
    rw [toObject, namedObjects_eq_mapValues]
    exact built_mapping distinct ih _

namespace Host

/-- Data of the kinds that rendering brings objects for. The tables of values have each key once;
the entries of other tables are put in one after another. A table whose order is not fixed is one in
the order in which it lists its entries. -/
inductive Shipped : Host → Prop
  | value {data : Value} : (data.Valid fun _ => True) → Shipped (.value data)
  | json {data : Json} : (data.Valid fun _ => True) → Shipped (.json data)
  | integer (n : Int) : Shipped (.integer n)
  | binary (width : Decimal.Width) (x : Decimal.Binary) : Shipped (.binary width x)
  | bool (b : Bool) : Shipped (.bool b)
  | string (text : String) : Shipped (.string text)
  | list (kind : ListKind) {items : List Host} :
      (∀ item ∈ items, Shipped item) → Shipped (.list kind items)
  | table (kind : TableKind) {entries : List (String × Host)} :
      (∀ entry ∈ entries, Shipped entry.2) → Shipped (.table kind entries)
  | missing : Shipped (.option none)
  | present {inner : Host} : Shipped inner → Shipped (.option (some inner))
  | reference {inner : Host} : Shipped inner → Shipped (.reference inner)
  | pair {first second : Host} : Shipped first → Shipped second → Shipped (.pair first second)

theorem toObjects_eq_map (items : List Host) : toObjects items = items.map toObject := by
  induction items with
  | nil => rfl
  | cons item items ih => rw [toObjects, ih, List.map_cons]

theorem namedObjects_eq_mapValues (entries : List (String × Host)) :
    namedObjects entries = mapValues toObject entries := by
  induction entries with
  | nil => rfl
  | cons entry entries ih => exact congrArg _ ih

theorem nodup_keys_arrange {α : Type} (kind : TableKind) (entries : List (String × α)) :
    (kind.arrange entries).keys.Nodup := by
  cases kind with
  | sorted => exact Table.nodup_keys_sorted entries
  | insertion => exact Table.nodup_keys_ofEntries entries

theorem mem_of_mem_arrange {α : Type} {kind : TableKind} {entries : List (String × α)}
    {entry : String × α} (member : entry ∈ kind.arrange entries) : entry ∈ entries := by
  cases kind with
  | sorted => exact Table.mem_of_mem_sorted member
  | insertion => exact Table.mem_of_mem_ofEntries member

theorem built_toObject {host : Host} (shipped : host.Shipped) : Built host.toObject := by
  induction shipped with
  | value held => exact Value.built_toObject held
  | json held => exact Json.built_toObject held
  | integer n => exact .counting _ _
  | binary width x => exact .plain _
  | bool b => exact .plain _
  | string text => exact .plain text
  | list kind each ih =>
    rw [toObject, toObjects_eq_map, Object.ofList_eq]
    exact built_sequence ih _
  | table kind each ih =>
    rw [toObject, namedObjects_eq_mapValues]
    exact .mapping _ (nodup_keys_arrange kind _) fun object member =>
      built_of_mem_mapValues ih object (mem_of_mem_arrange member)
  | missing => exact .plain ""
  | present _ ih =>
    rw [toObject_option_some]
    exact ih
  | reference _ ih =>
    rw [toObject_reference]
    exact ih
  | @pair first second _ _ one two =>
    refine .sequence _ fun object member => ?_
    rcases List.mem_cons.mp member with rfl | other
    · exact one
    · obtain rfl := List.mem_singleton.mp other
      exact two

/-- Everything that is reached in data is coherent: the item at a position is the one that is listed
there, a name is answered with what is listed with it and with nothing else, each name is listed
once, and what is not declared is not there. A map or a record of any entries lists each key once,
where it came first and with the value that came last, and so does the value that an object with
repeated keys is read as. -/
theorem coherent_of_reaches {host : Host} (shipped : host.Shipped) :
    (∀ object, host.toObject.Reaches object → object.Coherent) ∧
    (∀ entries : List (String × Value), ∃ table, Table.Settles entries table ∧
      (Value.mapOf entries).toObject.pairs = Object.namedPairs (mapValues Value.toObject table) ∧
      (Value.recordOf entries).toObject.pairs = Object.namedPairs (mapValues Value.toObject table)) ∧
    ∀ entries : List (String × Json), ∃ table, Table.Settles (mapValues Value.decode entries) table ∧
      (Value.decode (.object entries)).toObject.pairs =
        Object.namedPairs (mapValues Value.toObject table) := by
  have listed (entries : List (String × Value)) :
      (Value.mapOf entries).toObject.pairs =
        Object.namedPairs (mapValues Value.toObject (Table.ofEntries entries)) := by
    rw [← Value.namedObjects_eq_mapValues]
    rfl
  refine ⟨fun object reaches => ((built_toObject shipped).of_reaches reaches).coherent,
    fun entries => ⟨_, Table.settles_ofEntries entries, listed entries, listed entries⟩,
    fun entries => ⟨_, Table.settles_ofEntries _, ?_⟩⟩
  rw [Value.decode, Value.decodeEntries_eq_mapValues]
  exact listed _

/-- A record that is made of entries with a repeated key, inside a list inside a table with a
repeated key, behind a reference and an option as one component of a pair. -/
theorem coherent_of_reaches_nested :
    let fields : List (String × Value) := [("x", .null), ("y", .bool true), ("x", .string "2")]
    let record := Host.value (.recordOf fields)
    let items := Host.list .growing [.integer 1, record]
    let table := Host.table .insertion [("b", .bool true), ("a", items), ("b", .option none)]
    let host := Host.pair (.string "s") (.option (some (.reference table)))
    host.Shipped ∧ table.toObject.Coherent ∧ record.toObject.Coherent ∧
      record.toObject.pairs = [(.plain "x", .plain "2"), (.plain "y", .plain "true")] := by
  intro fields record items table host
  have held : ∀ field ∈ fields, field.2.Valid fun _ => True := by
    simp only [fields, List.forall_mem_cons, List.not_mem_nil, false_imp_iff, implies_true, and_true]
    exact ⟨.null, .bool true, .string "2"⟩
  have listed : items.Shipped := by
    refine .list .growing ?_
    simp only [List.forall_mem_cons, List.not_mem_nil, false_imp_iff, implies_true, and_true]
    exact ⟨.integer 1, .value (Value.valid_ofEntries held).2⟩
  have tabled : table.Shipped := by
    refine .table .insertion ?_
    simp only [List.forall_mem_cons, List.not_mem_nil, false_imp_iff, implies_true, and_true]
    exact ⟨.bool true, listed, .missing⟩
  have shipped : host.Shipped := .pair (.string "s") (.present (.reference tabled))
  obtain ⟨coherent, -⟩ := coherent_of_reaches shipped
  have second : host.toObject.item? 1 = some table.toObject := rfl
  have under : table.toObject.key? "a" = some items.toObject := rfl
  have last : items.toObject.item? 1 = some record.toObject := rfl
  have toTable := Object.Reaches.itemAt .here second
  have toRecord := Object.Reaches.itemAt (.keyAt toTable under) last
  exact ⟨shipped, coherent _ toTable, coherent _ toRecord, rfl⟩

end Host

end XmlTemplate
