import XmlTemplate.Value.Table

/-!
# Tables and the entries they are made of

A table has each key once, in whatever order its entries came. In a table in the order of insertion
a key stands where it came first and has the value that came last.

Results:
1. `find?_eq_some_iff`: what is found under a key is what the table lists with it.
2. `nodup_keys_sorted`: a sorted table has each key once.
3. `settles_ofEntries`: the first place and the last value of each key.
-/

namespace XmlTemplate.Table

variable {α : Type} {key other : String} {value : α} {table : Table α}

theorem mem_keys_of_mem (member : (key, value) ∈ table) : key ∈ table.keys :=
  List.mem_map_of_mem member

theorem find?_eq_some_iff (distinct : table.keys.Nodup) :
    table.find? key = some value ↔ (key, value) ∈ table := by
  induction table with
  | nil => simp [find?]
  | cons entry rest ih =>
    obtain ⟨k, first⟩ := entry
    obtain ⟨absent, distinct⟩ := List.nodup_cons.mp distinct
    rw [find?]
    by_cases same : k = key
    · subst same
      have outside : (k, value) ∉ rest := fun member => absent (mem_keys_of_mem member)
      simp [outside, eq_comm]
    · simp [same, Ne.symm same, ih distinct]

theorem mem_of_find? (found : table.find? key = some value) : (key, value) ∈ table := by
  fun_induction find? table key with
  | case1 => cases found
  | case2 first rest =>
    cases found
    exact List.mem_cons_self ..
  | case3 k first rest different ih => exact List.mem_cons_of_mem _ (ih found)

/-! ## Sorted tables -/

theorem mem_putSorted {entry : String × α} (member : entry ∈ table.putSorted key value) :
    entry = (key, value) ∨ entry ∈ table := by
  fun_induction putSorted key value table with
  | case1 => exact .inl (List.mem_singleton.mp member)
  | case2 old rest => exact (List.mem_cons.mp member).imp_right (List.mem_cons_of_mem _)
  | case3 k old rest different before => exact List.mem_cons.mp member
  | case4 k old rest different after ih =>
    rcases List.mem_cons.mp member with rfl | member
    · exact .inr (List.mem_cons_self ..)
    · exact (ih member).imp_right (List.mem_cons_of_mem _)

theorem mem_keys_putSorted (member : other ∈ (table.putSorted key value).keys) :
    other = key ∨ other ∈ table.keys := by
  obtain ⟨entry, inside, rfl⟩ := List.mem_map.mp member
  rcases mem_putSorted inside with rfl | old
  · exact .inl rfl
  · exact .inr (mem_keys_of_mem old)

theorem mem_of_mem_sorted {entries : List (String × α)} {entry : String × α}
    (member : entry ∈ sorted entries) : entry ∈ entries := by
  have listed : ∀ other ∈ sorted entries, other ∈ entries := by
    unfold sorted
    refine @List.foldlRecOn _ _ (fun table => ∀ other ∈ table, other ∈ entries) entries _ []
      (List.forall_mem_nil _) fun table kept first inside other present => ?_
    rcases mem_putSorted present with rfl | old
    · exact inside
    · exact kept other old
  exact listed entry member

/-- The keys increase from entry to entry. -/
def Increasing (table : Table α) : Prop := table.keys.Pairwise (· < ·)

theorem Increasing.putSorted (increasing : table.Increasing) (key : String) (value : α) :
    Increasing (table.putSorted key value) := by
  fun_induction Table.putSorted key value table with
  | case1 => exact List.pairwise_singleton ..
  | case2 old rest => exact increasing
  | case3 k old rest different before =>
    obtain ⟨above, -⟩ := List.pairwise_cons.mp increasing
    refine List.pairwise_cons.mpr ⟨fun later member => ?_, increasing⟩
    rcases List.mem_cons.mp member with rfl | member
    · exact before
    · exact String.lt_trans before (above later member)
  | case4 k old rest different after ih =>
    obtain ⟨above, increasing⟩ := List.pairwise_cons.mp increasing
    refine List.pairwise_cons.mpr ⟨fun later member => ?_, ih increasing⟩
    rcases mem_keys_putSorted member with rfl | member
    · exact Std.lt_of_le_of_ne (String.not_lt.mp after) different
    · exact above later member

theorem increasing_sorted (entries : List (String × α)) : Increasing (sorted entries) := by
  unfold sorted
  exact @List.foldlRecOn _ _ Increasing entries _ [] .nil fun table increasing entry _ =>
    increasing.putSorted entry.1 entry.2

theorem nodup_keys_sorted (entries : List (String × α)) : (sorted entries).keys.Nodup :=
  (increasing_sorted entries).imp fun less => Std.ne_of_lt less

/-! ## The order of insertion -/

/-- Each key of the entries stands once, where it came first, with the value that came last. -/
structure Settles (entries : List (String × α)) (table : Table α) : Prop where
  keys : table.keys = (Table.keys entries).eraseDups
  find? : ∀ key, table.find? key = Table.find? entries.reverse key

theorem keys_put (key : String) (value : α) (table : Table α) :
    (table.put key value).keys = if key ∈ table.keys then table.keys else table.keys ++ [key] := by
  split
  · rename_i present
    exact keys_put_of_mem present
  · rename_i absent
    exact keys_put_of_not_mem absent

theorem Settles.put {entries : List (String × α)} (settles : Settles entries table) (key : String)
    (value : α) : Settles (entries ++ [(key, value)]) (table.put key value) where
  keys := by
    have present : key ∈ table.keys ↔ key ∈ Table.keys entries := by
      rw [settles.keys, List.mem_eraseDups]
    have grown : Table.keys (entries ++ [(key, value)]) = Table.keys entries ++ [key] := by
      simp [Table.keys]
    rw [keys_put, grown, List.eraseDups_append, settles.keys]
    by_cases here : key ∈ Table.keys entries
    · have known : [key].removeAll (Table.keys entries) = [] := by simp [List.removeAll, here]
      simp [here, known]
    · have new : [key].removeAll (Table.keys entries) = [key] := by simp [List.removeAll, here]
      simp [here, new, List.eraseDups_cons]
  find? other := by
    rw [List.reverse_append]
    show _ = Table.find? ((key, value) :: entries.reverse) other
    rw [Table.find?]
    by_cases same : other = key
    · subst same
      simp [find?_put_self]
    · rw [find?_put_of_ne same, settles.find?, if_neg (Ne.symm same)]

theorem settles_ofEntries (entries : List (String × α)) : Settles entries (ofEntries entries) := by
  have grows : ∀ (seen : List (String × α)) (table : Table α), Settles seen table →
      Settles (seen ++ entries)
        (entries.foldl (fun table entry => table.put entry.1 entry.2) table) := by
    induction entries with
    | nil => exact fun seen table settles => by simpa using settles
    | cons entry rest ih =>
      intro seen table settles
      rw [List.append_cons]
      exact ih _ _ (settles.put entry.1 entry.2)
  exact grows [] [] ⟨rfl, fun key => rfl⟩

theorem mem_of_mem_ofEntries {entries : List (String × α)} {entry : String × α}
    (member : entry ∈ ofEntries entries) : entry ∈ entries := by
  have found : find? (ofEntries entries) entry.1 = some entry.2 :=
    (find?_eq_some_iff (nodup_keys_ofEntries entries)).mpr member
  rw [(settles_ofEntries entries).find?] at found
  exact List.mem_reverse.mp (mem_of_find? found)

end XmlTemplate.Table
