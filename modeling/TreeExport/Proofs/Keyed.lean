import TreeExport.Keyed
import Mathlib.Data.List.Induction

/-!
Maps that are written entry by entry. A key stands where it was written first, with the value that was written
last.
-/

namespace TreeExport

namespace Keyed

variable {α : Type} {map : Keyed α} {entries before after : List (String × α)} {entry : String × α}
variable {key : String} {value : α}

theorem keys_put (map : Keyed α) (key : String) (value : α) :
    (map.put key value).keys = if key ∈ map.keys then map.keys else map.keys ++ [key] := by
  induction map with
  | nil => simp [put, keys]
  | cons entry rest ih =>
      obtain ⟨k, v⟩ := entry
      rw [keys, keys] at ih
      by_cases here : k = key
      · simp [put, keys, here]
      · have other : key ≠ k := Ne.symm here
        simp only [put, keys, here, other, ih, if_false, List.map_cons, List.mem_cons, false_or,
          List.cons_append]
        split <;> rfl

theorem mem_of_mem_put (member : entry ∈ map.put key value) : entry = (key, value) ∨ entry ∈ map := by
  induction map with
  | nil => exact Or.inl (List.mem_singleton.mp member)
  | cons first rest ih =>
      obtain ⟨k, v⟩ := first
      rw [put] at member
      split at member
      · rename_i same
        subst same
        exact (List.mem_cons.mp member).imp id (List.mem_cons_of_mem _)
      · rcases List.mem_cons.mp member with rfl | later
        · exact Or.inr List.mem_cons_self
        · exact (ih later).imp id (List.mem_cons_of_mem _)

theorem ofList_append_singleton (entries : List (String × α)) (entry : String × α) :
    ofList (entries ++ [entry]) = (ofList entries).put entry.1 entry.2 :=
  List.foldl_append

theorem keys_ofList (entries : List (String × α)) :
    (ofList entries).keys = (entries.map Prod.fst).eraseDups := by
  induction entries using List.reverseRecOn with
  | nil => rfl
  | append_singleton entries entry ih =>
      rw [ofList_append_singleton, keys_put, ih, List.map_append, List.map_singleton, List.eraseDups_append]
      by_cases known : entry.1 ∈ entries.map Prod.fst
      · rw [if_pos (List.mem_eraseDups.mpr known)]
        simp only [List.removeAll, List.filter_cons, List.elem_eq_mem, known, decide_true, Bool.not_true,
          Bool.false_eq_true, if_false, List.filter_nil, List.eraseDups_nil, List.append_nil]
      · rw [if_neg (fun listed => known (List.mem_eraseDups.mp listed))]
        simp only [List.removeAll, List.filter_cons, List.elem_eq_mem, known, decide_false, Bool.not_false,
          if_true, List.filter_nil]
        rfl

theorem nodup_keys_ofList (entries : List (String × α)) : (ofList entries).keys.Nodup := by
  induction entries using List.reverseRecOn with
  | nil => exact List.nodup_nil
  | append_singleton entries entry ih =>
      rw [ofList_append_singleton, keys_put]
      split
      · exact ih
      · rename_i fresh
        refine List.nodup_append.mpr ⟨ih, by simp, ?_⟩
        rintro key member _ same rfl
        exact fresh (List.mem_singleton.mp same ▸ member)

theorem mem_of_mem_ofList (member : entry ∈ ofList entries) : entry ∈ entries := by
  induction entries using List.reverseRecOn with
  | nil => exact absurd member List.not_mem_nil
  | append_singleton entries last ih =>
      rw [ofList_append_singleton] at member
      rcases mem_of_mem_put member with rfl | earlier
      · exact List.mem_append_right _ List.mem_cons_self
      · exact List.mem_append_left _ (ih earlier)

theorem get?_ofList_of_last (absent : key ∉ after.map Prod.fst) :
    (ofList (before ++ (key, value) :: after)).get? key = some value := by
  induction after using List.reverseRecOn with
  | nil => rw [ofList_append_singleton, get?_put, if_pos rfl]
  | append_singleton after last ih =>
      rw [List.map_append, List.mem_append, not_or, List.map_singleton, List.mem_singleton] at absent
      rw [← List.cons_append, ← List.append_assoc, ofList_append_singleton, get?_put, if_neg absent.2]
      exact ih absent.1

end Keyed

end TreeExport
