import Duplex.RoutingTable

/-!
# What a routing table holds

A table is a map from ids to identities (`RoutingTable.identity?`). An insertion and a removal each
change it for one id (`identity?_insert`, `identity?_removeIfSame`), and the list behind it holds
no id twice (`Distinct`), so that every entry in it is found under its id (`mem_entries_iff`).
-/

namespace Duplex.RoutingTable

variable {α : Type} (table : RoutingTable α) (key k : ConnectionId)

/-- The identity of the entry of an id. -/
def identity? : Option Nat := (table.get? key).map (·.identity)

theorem get?_insert (entry : Entry α) :
    RoutingTable.get? { entries := table.entries ++ [(key, entry)] } k =
      (table.get? k).or (if k = key then some entry else none) := by
  simp only [get?, List.find?_append, List.find?_singleton, Option.map_or]
  congr 1
  by_cases hk : k = key
  · simp [hk]
  · simp [hk, Ne.symm hk]

theorem identity?_insert {entry : Entry α} (hn : table.get? key = none) :
    RoutingTable.identity? { entries := table.entries ++ [(key, entry)] } k =
      if k = key then some entry.identity else table.identity? k := by
  rw [identity?, get?_insert]
  by_cases hk : k = key
  · rw [if_pos hk, if_pos hk, hk, hn]; rfl
  · rw [if_neg hk, if_neg hk, Option.or_none]; rfl

theorem get?_erase : (table.erase key).get? k = if k = key then none else table.get? k := by
  simp only [get?, erase, List.find?_filter]
  split
  · rename_i hk
    rw [List.find?_eq_none.mpr]; · rfl
    intro p _
    simp [hk]
  · rename_i hk
    congr 2
    funext p
    by_cases hp : p.1 = k
    · simp [hp, hk]
    · simp [hp]

/-- A removal takes out the entry of one id, if it is the one that is meant. -/
theorem identity?_removeIfSame (identity : Nat) :
    (table.removeIfSame key identity).2.identity? k =
      if k = key ∧ table.identity? key = some identity then none else table.identity? k := by
  simp only [removeIfSame]
  split
  · rename_i entry hg
    have hi : table.identity? key = some entry.identity := by rw [identity?, hg]; rfl
    rw [hi]
    by_cases he : entry.identity = identity
    · by_cases hk : k = key
      · rw [if_pos he, if_pos ⟨hk, by rw [he]⟩, identity?, get?_erase, if_pos hk]; rfl
      · rw [if_pos he, if_neg fun h => hk h.1, identity?, get?_erase, if_neg hk]; rfl
    · rw [if_neg he, if_neg fun h => he (Option.some.inj h.2)]
  · rename_i hg
    have hi : table.identity? key = none := by rw [identity?, hg]; rfl
    rw [hi, if_neg fun h => nomatch h.2]

/-! ## No id twice -/

/-- No id occurs twice. -/
def Distinct (table : RoutingTable α) : Prop := (table.entries.map (·.1)).Nodup

variable {table key}

theorem Distinct.insert (hd : table.Distinct) (hn : table.get? key = none) (entry : Entry α) :
    Distinct { entries := table.entries ++ [(key, entry)] } := by
  have hk : key ∉ table.entries.map (·.1) := by
    intro hm
    obtain ⟨p, hp, rfl⟩ := List.mem_map.mp hm
    simp only [get?, Option.map_eq_none_iff, List.find?_eq_none] at hn
    exact hn p hp (beq_self_eq_true _)
  simp only [Distinct, List.map_append, List.map_singleton, List.nodup_append]
  refine ⟨hd, by simp, ?_⟩
  intro a ha b hb he
  rw [List.mem_singleton.mp hb] at he
  exact hk (he ▸ ha)

theorem Distinct.removeIfSame (hd : table.Distinct) (key : ConnectionId) (identity : Nat) :
    (table.removeIfSame key identity).2.Distinct := by
  simp only [RoutingTable.removeIfSame]
  split
  · split
    · exact (hd.sublist (List.filter_sublist.map _) : _)
    · exact hd
  · exact hd

theorem mem_entries_iff (hd : table.Distinct) (entry : Entry α) :
    (key, entry) ∈ table.entries ↔ table.get? key = some entry := by
  obtain ⟨entries⟩ := table
  simp only [Distinct, get?] at hd ⊢
  induction entries with
  | nil => simp
  | cons p entries ih =>
    obtain ⟨hp, hd⟩ := List.nodup_cons.mp hd
    rw [List.find?_cons, List.mem_cons]
    by_cases hk : p.1 = key
    · have hn : ∀ e, (key, e) ∉ entries := fun e he => hp (List.mem_map.mpr ⟨_, he, hk.symm⟩)
      simp only [hk, beq_self_eq_true, Option.map_some, Option.some.injEq, hn, or_false]
      constructor
      · intro h; rw [← h]
      · rintro rfl; rw [← hk]
    · have hb : (p.1 == key) = false := by simpa using hk
      rw [hb]
      simp only [← ih hd]
      constructor
      · rintro (h | h)
        · exact absurd (congrArg Prod.fst h).symm hk
        · exact h
      · exact .inr

end Duplex.RoutingTable
