/-!
# Tables

A table is a list of entries in which each key stands once. Entries are put in one after another: a
table in the order of insertion keeps a key where it was first and takes its last value, a sorted
table keeps its keys in increasing order. The first stands for the maps of indexmap and the second for
the objects of serde_json; they follow their rules for the place and the value of a key that comes
again, and for finding a key.

Results:
1. `find?_put_self`, `find?_put_of_ne`: what is found after an entry was put in.
2. `nodup_keys_put`, `nodup_keys_ofEntries`: each key stands once.
3. `keys_put_of_mem`: a key that is there keeps its place.
4. `ofEntries_of_nodup`: entries with distinct keys stay as they are.
-/

namespace XmlTemplate

/-- Entries with their keys. -/
abbrev Table (α : Type) := List (String × α)

namespace Table

variable {α : Type}

/-- The keys in the order of their entries. -/
def keys (table : Table α) : List String := table.map Prod.fst

/-- The value of the first entry with a key. -/
def find? (table : Table α) (key : String) : Option α :=
  match table with
  | [] => none
  | (k, value) :: rest => if k = key then some value else find? rest key

/-- A key gets a value. It keeps its place, or comes last if it is new. -/
def put (key : String) (value : α) : Table α → Table α
  | [] => [(key, value)]
  | (k, old) :: rest => if k = key then (k, value) :: rest else (k, old) :: put key value rest

/-- The table in the order of insertion. -/
def ofEntries (entries : List (String × α)) : Table α :=
  entries.foldl (fun table entry => table.put entry.1 entry.2) []

/-- A key gets a value in a table whose keys increase. -/
def putSorted (key : String) (value : α) : Table α → Table α
  | [] => [(key, value)]
  | (k, old) :: rest =>
    if k = key then (k, value) :: rest
    else if key < k then (key, value) :: (k, old) :: rest
    else (k, old) :: putSorted key value rest

/-- The table in the order of its keys. -/
def sorted (entries : List (String × α)) : Table α :=
  entries.foldl (fun table entry => table.putSorted entry.1 entry.2) []

theorem find?_put_self (key : String) (value : α) (table : Table α) :
    (table.put key value).find? key = some value := by
  fun_induction put key value table with
  | case1 => simp [find?]
  | case2 old rest => simp [find?]
  | case3 k old rest other ih => simp [find?, other, ih]

theorem find?_put_of_ne {key other : String} (ne : other ≠ key) (value : α) (table : Table α) :
    (table.put key value).find? other = table.find? other := by
  fun_induction put key value table with
  | case1 => simp [find?, Ne.symm ne]
  | case2 old rest => simp [find?, Ne.symm ne]
  | case3 k old rest differs ih => simp [find?, ih]

theorem keys_put_of_mem {key : String} {value : α} {table : Table α}
    (present : key ∈ table.keys) : (table.put key value).keys = table.keys := by
  fun_induction put key value table with
  | case1 => simp [keys] at present
  | case2 old rest => simp [keys]
  | case3 k old rest other ih =>
    have inRest : key ∈ keys rest := by
      simpa [keys, Ne.symm other] using present
    have kept := ih inRest
    simp only [keys, List.map_cons] at kept ⊢
    rw [kept]

theorem put_of_not_mem {key : String} {value : α} {table : Table α} (absent : key ∉ table.keys) :
    table.put key value = table ++ [(key, value)] := by
  fun_induction put key value table with
  | case1 => rfl
  | case2 old rest => simp [keys] at absent
  | case3 k old rest other ih =>
    have notInRest : key ∉ keys rest := by
      intro inRest
      exact absent (by simp only [keys, List.map_cons, List.mem_cons]; exact .inr inRest)
    rw [ih notInRest, List.cons_append]

theorem keys_put_of_not_mem {key : String} {value : α} {table : Table α}
    (absent : key ∉ table.keys) : (table.put key value).keys = table.keys ++ [key] := by
  rw [put_of_not_mem absent]
  simp [keys]

theorem nodup_keys_put {key : String} {value : α} {table : Table α}
    (distinct : table.keys.Nodup) : (table.put key value).keys.Nodup := by
  by_cases present : key ∈ table.keys
  · rw [keys_put_of_mem present]; exact distinct
  · rw [keys_put_of_not_mem present]
    exact List.nodup_append.mpr ⟨distinct, by simp, by
      intro k here l isKey same
      simp only [List.mem_singleton] at isKey
      exact present (by rw [← isKey, ← same]; exact here)⟩

theorem nodup_keys_ofEntries (entries : List (String × α)) : (ofEntries entries).keys.Nodup := by
  have grows : ∀ table : Table α, table.keys.Nodup →
      (entries.foldl (fun table entry => table.put entry.1 entry.2) table).keys.Nodup := by
    induction entries with
    | nil => exact fun table distinct => distinct
    | cons entry rest ih => exact fun table distinct => ih _ (nodup_keys_put distinct)
  exact grows [] (by simp [keys])

/-- Entries with distinct keys are a table already. -/
theorem ofEntries_of_nodup {entries : List (String × α)} (distinct : (keys entries).Nodup) :
    ofEntries entries = entries := by
  have grows : ∀ table : Table α, (keys (table ++ entries)).Nodup →
      entries.foldl (fun table entry => table.put entry.1 entry.2) table = table ++ entries := by
    clear distinct
    induction entries with
    | nil => exact fun table distinct => (List.append_nil table).symm
    | cons entry rest ih =>
      intro table distinct
      have absent : entry.1 ∉ table.keys := by
        intro present
        rw [keys, List.map_append, List.nodup_append] at distinct
        exact distinct.2.2 _ present _ (by simp) rfl
      rw [List.append_cons] at distinct ⊢
      rw [List.foldl_cons, put_of_not_mem absent]
      exact ih _ distinct
  exact grows [] distinct

example : ofEntries [("b", 1), ("a", 2), ("b", 3)] = [("b", 3), ("a", 2)] := by decide
example : sorted [("b", 1), ("a", 2), ("b", 3)] = [("a", 2), ("b", 3)] := by decide

end Table

end XmlTemplate
