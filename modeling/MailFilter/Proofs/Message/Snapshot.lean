import Mathlib.Data.List.Perm.Subperm
import Mathlib.Data.String.Basic
import MailFilter.Message.Snapshot
import MailFilter.Proofs.Message.ReadBack

/-
  Two snapshots differ exactly if the messages they were taken
  of have other headers, where the order of the headers does
  not count.

  Key definitions include:
    * `Snapshot.valuesOf`

  Main statements:
    * `Snapshot.lookup_take`
    * `Snapshot.isDirty_take_eq_false_iff`
-/

namespace MailFilter

namespace Snapshot

/- The values of the headers with a name in lower case. -/
def valuesOf
    (name : String)
    (headers : List Header) : List String :=
  (headers.filter fun header =>
    Text.lower header.name = name).map Header.value

------------------------------------------------------------
-- Groups
------------------------------------------------------------

theorem lookup_cons_of_ne
    {name key : String}
    (hNot : name ≠ key)
    (values : List String)
    (groups : List (String × List String)) :
    ((key, values) :: groups).lookup name =
      groups.lookup name := by
  rw [List.lookup_cons, beq_eq_false_iff_ne.mpr hNot]

theorem lookup_addValue
    (name value other : String)
    (groups : List (String × List String)) :
    (addValue name value groups).lookup other =
      if other = name then
          some (value :: (groups.lookup name).getD [])
        else
          groups.lookup other := by
  induction groups with
  | nil =>
      by_cases hSame : other = name
      · simp [addValue, hSame]
      · simp [addValue, lookup_cons_of_ne hSame, hSame]
  | cons entry groups ih =>
      rcases entry with ⟨key, values⟩
      by_cases hKey : key = name
      · subst hKey
        by_cases hSame : other = key
        · simp [addValue, hSame]
        · simp [addValue, lookup_cons_of_ne hSame, hSame]
      · by_cases hSame : other = key
        · subst hSame
          simp [addValue, hKey]
        · simp [addValue, hKey, lookup_cons_of_ne hSame, ih,
            lookup_cons_of_ne (Ne.symm hKey)]

theorem keys_addValue
    (name value : String)
    (groups : List (String × List String)) :
    (addValue name value groups).map Prod.fst =
      if name ∈ groups.map Prod.fst then
          groups.map Prod.fst
        else
          groups.map Prod.fst ++ [name] := by
  induction groups with
  | nil => rfl
  | cons entry groups ih =>
      rcases entry with ⟨key, values⟩
      by_cases hKey : key = name
      · simp [addValue, hKey]
      · simp only [addValue, hKey, if_false, List.map_cons, ih,
          List.mem_cons, Ne.symm hKey, false_or]
        split <;> rfl

theorem group_concat
    (headers : List Header)
    (header : Header) :
    group (headers ++ [header]) =
      addValue (Text.lower header.name) header.value
          (group headers) := by
  simp [group]

/- No name has two groups. -/
theorem nodup_keys_group
    (headers : List Header) :
    ((group headers).map Prod.fst).Nodup := by
  induction headers using List.reverseRecOn with
  | nil => simp [group]
  | append_singleton headers header ih =>
      rw [group_concat, keys_addValue]
      split
      · exact ih
      · rename_i hNew
        rw [List.nodup_append]
        refine ⟨ih, by simp, ?_⟩
        intro key hKey other hOther hEq
        rw [List.mem_singleton.mp hOther] at hEq
        exact hNew (hEq ▸ hKey)

/- A group has the values of its name, the newest first. -/
theorem lookup_group
    (name : String)
    (headers : List Header) :
    (group headers).lookup name =
      if valuesOf name headers = [] then none
        else some (valuesOf name headers).reverse := by
  induction headers using List.reverseRecOn with
  | nil => simp [group, valuesOf]
  | append_singleton headers header ih =>
      rw [group_concat, lookup_addValue]
      by_cases hName : Text.lower header.name = name
      · have hValues :
            valuesOf name (headers ++ [header]) =
              valuesOf name headers ++ [header.value] := by
          simp [valuesOf, hName]
        rw [if_pos hName.symm, hValues, hName, ih]
        by_cases hNone : valuesOf name headers = []
        · simp [hNone]
        · simp [hNone]
      · have hValues :
            valuesOf name (headers ++ [header]) =
              valuesOf name headers := by
          simp [valuesOf, hName]
        rw [if_neg (Ne.symm hName), hValues, ih]

------------------------------------------------------------
-- Order
------------------------------------------------------------

/- Values in another order are brought into the same one. -/
theorem sortValues_eq_iff_perm
    {first second : List String} :
    sortValues first = sortValues second ↔
      first.Perm second := by
  constructor
  · intro hSame
    have hFirst : (sortValues first).Perm first :=
      List.mergeSort_perm _ _
    have hSecond : (sortValues second).Perm second :=
      List.mergeSort_perm _ _
    rw [hSame] at hFirst
    exact hFirst.symm.trans hSecond
  · intro hPerm
    have hSorted :
        ∀ values : List String,
          (sortValues values).Pairwise
            (fun a b => (!decide (b < a)) = true) := by
      intro values
      apply List.pairwise_mergeSort
      · intro a b c hab hbc
        simp only [Bool.not_eq_true', decide_eq_false_iff_not,
          not_lt] at hab hbc ⊢
        exact hab.trans hbc
      · intro a b
        simp only [Bool.or_eq_true, Bool.not_eq_true',
          decide_eq_false_iff_not, not_lt]
        exact le_total a b
    refine List.Perm.eq_of_pairwise ?_ (hSorted first)
      (hSorted second) ?_
    · intro a b _ _ hab hba
      simp only [Bool.not_eq_true', decide_eq_false_iff_not,
        not_lt] at hab hba
      exact le_antisymm hab hba
    · exact (List.mergeSort_perm _ _).trans
        (hPerm.trans (List.mergeSort_perm _ _).symm)

------------------------------------------------------------
-- Snapshots
------------------------------------------------------------

theorem lookup_map_snd
    (change : List String → List String)
    (groups : List (String × List String))
    (name : String) :
    (groups.map fun (key, values) =>
        (key, change values)).lookup name =
      (groups.lookup name).map change := by
  induction groups with
  | nil => rfl
  | cons entry groups ih =>
      rcases entry with ⟨key, values⟩
      by_cases hSame : name = key
      · simp [hSame]
      · simp [lookup_cons_of_ne hSame, ih]

/- A snapshot has the values of every name in order. -/
theorem lookup_take
    (message : Message)
    (name : String) :
    (take (some message)).groups.lookup name =
      if valuesOf name message.headers = [] then none
        else some
          (sortValues (valuesOf name message.headers)) := by
  have hReverse :
      ∀ values : List String,
        sortValues values.reverse = sortValues values := by
    intro values
    exact sortValues_eq_iff_perm.mpr values.reverse_perm
  rw [take, lookup_map_snd, lookup_group]
  split
  · rfl
  · rw [Option.map_some, hReverse]

theorem keys_take
    (message : Message) :
    (take (some message)).groups.map Prod.fst =
      (group message.headers).map Prod.fst := by
  simp [take, Function.comp_def]

theorem nodup_keys_take
    (message : Message) :
    ((take (some message)).groups.map Prod.fst).Nodup := by
  rw [keys_take]
  exact nodup_keys_group message.headers

/- The group of a name is found under it and nowhere else. -/
theorem mem_groups_iff
    (message : Message)
    (name : String)
    (values : List String) :
    (name, values) ∈ (take (some message)).groups ↔
      (take (some message)).groups.lookup name =
        some values := by
  have hNodup := nodup_keys_take message
  generalize (take (some message)).groups = groups at hNodup
  induction groups with
  | nil => simp
  | cons entry groups ih =>
      rcases entry with ⟨key, found⟩
      rw [List.map_cons, List.nodup_cons] at hNodup
      by_cases hSame : name = key
      · subst hSame
        have hNone : (name, values) ∉ groups := by
          intro hMem
          have hKey : name ∈ groups.map Prod.fst :=
            List.mem_map_of_mem (f := Prod.fst) hMem
          exact hNodup.1 hKey
        simp [hNone, eq_comm]
      · simp [lookup_cons_of_ne hSame, hSame, ih hNodup.2]

/- A name has a group if some header has it. -/
theorem mem_keys_iff
    (message : Message)
    (name : String) :
    name ∈ (take (some message)).groups.map Prod.fst ↔
      valuesOf name message.headers ≠ [] := by
  constructor
  · intro hMem
    rcases List.mem_map.mp hMem with ⟨⟨key, values⟩, hGroup, rfl⟩
    have hLookup := (mem_groups_iff message key values).mp hGroup
    rw [lookup_take] at hLookup
    intro hNone
    simp [hNone] at hLookup
  · intro hSome
    have hLookup := lookup_take message name
    rw [if_neg hSome] at hLookup
    exact List.mem_map_of_mem (f := Prod.fst)
      ((mem_groups_iff message name _).mpr hLookup)

/- An entry occurs as often as its value among its name's. -/
theorem count_entries
    (message : Message)
    (name value : String) :
    message.entries.count (name, value) =
      (valuesOf name message.headers).count value := by
  unfold Message.entries valuesOf List.count
  rw [List.countP_map, List.countP_map, List.countP_filter]
  apply List.countP_congr
  intro header _
  simp [and_comm]

/- Messages have the same entries if they have the same values. -/
theorem perm_entries_iff
    (first second : Message) :
    first.entries.Perm second.entries ↔
      ∀ name, (valuesOf name first.headers).Perm
          (valuesOf name second.headers) := by
  constructor
  · intro hPerm name
    rw [List.perm_iff_count]
    intro value
    rw [← count_entries, ← count_entries, hPerm.count_eq]
  · intro hValues
    rw [List.perm_iff_count]
    rintro ⟨name, value⟩
    rw [count_entries, count_entries,
      (hValues name).count_eq]

/- The values of a name are the same if its groups are. -/
theorem lookup_take_eq_iff
    (first second : Message)
    (name : String) :
    (take (some first)).groups.lookup name =
        (take (some second)).groups.lookup name ↔
      (valuesOf name first.headers).Perm
          (valuesOf name second.headers) := by
  rw [lookup_take, lookup_take]
  constructor
  · intro hSame
    split at hSame
    · rename_i hFirst
      split at hSame
      · rename_i hSecond
        rw [hFirst, hSecond]
      · cases hSame
    · split at hSame
      · cases hSame
      · exact sortValues_eq_iff_perm.mp (Option.some.inj hSame)
  · intro hPerm
    by_cases hNone : valuesOf name first.headers = []
    · have hOther : valuesOf name second.headers = [] := by
        rw [hNone] at hPerm
        exact hPerm.nil_eq.symm
      rw [if_pos hNone, if_pos hOther]
    · have hOther : valuesOf name second.headers ≠ [] := by
        intro hEmpty
        rw [hEmpty] at hPerm
        exact hNone hPerm.eq_nil
      rw [if_neg hNone, if_neg hOther,
        sortValues_eq_iff_perm.mpr hPerm]

/-
  What is compared: the numbers of headers and of names, and
  the values of each name that there is now.
-/
theorem isDirty_take_eq_false_iff_groups
    (first second : Message) :
    (take (some first)).isDirty (take (some second)) = false ↔
      first.headers.length = second.headers.length ∧
        (take (some first)).groups.length =
          (take (some second)).groups.length ∧
        ∀ name values,
            (name, values) ∈ (take (some second)).groups →
            (take (some first)).groups.lookup name =
              some values := by
  simp [isDirty, take, and_assoc]

/- As many names with the same values leave no other name. -/
theorem perm_valuesOf_of_groups
    {first second : Message}
    (hLength :
      (take (some first)).groups.length =
        (take (some second)).groups.length)
    (hGroups :
      ∀ name values,
        (name, values) ∈ (take (some second)).groups →
        (take (some first)).groups.lookup name = some values)
    (name : String) :
    (valuesOf name first.headers).Perm
      (valuesOf name second.headers) := by
  have hLookup :
      ∀ name ∈ (take (some second)).groups.map Prod.fst,
        (take (some first)).groups.lookup name =
          (take (some second)).groups.lookup name := by
    intro name hMem
    rcases List.mem_map.mp hMem with
      ⟨⟨key, values⟩, hGroup, rfl⟩
    rw [hGroups key values hGroup,
      (mem_groups_iff second key values).mp hGroup]
  have hSubset :
      (take (some second)).groups.map Prod.fst ⊆
        (take (some first)).groups.map Prod.fst := by
    intro name hMem
    rw [mem_keys_iff]
    intro hNone
    have hSame := hLookup name hMem
    rw [lookup_take, if_pos hNone, lookup_take] at hSame
    rw [if_neg ((mem_keys_iff second name).mp hMem)] at hSame
    cases hSame
  have hPerm :=
    ((nodup_keys_take second).subperm hSubset).perm_of_length_le
      (by rw [List.length_map, List.length_map, hLength])
  by_cases hMem : name ∈ (take (some second)).groups.map Prod.fst
  · exact (lookup_take_eq_iff first second name).mp
      (hLookup name hMem)
  · have hFirst := fun hIn => hMem (hPerm.symm.subset hIn)
    rw [mem_keys_iff, not_not] at hMem
    rw [mem_keys_iff] at hFirst
    rw [hMem, not_not.mp hFirst]

/- The same values leave as many names. -/
theorem length_groups_eq
    {first second : Message}
    (hValues :
      ∀ name, (valuesOf name first.headers).Perm
        (valuesOf name second.headers)) :
    (take (some first)).groups.length =
      (take (some second)).groups.length := by
  have hKeys :
      ((take (some first)).groups.map Prod.fst).Perm
        ((take (some second)).groups.map Prod.fst) := by
    rw [List.perm_ext_iff_of_nodup (nodup_keys_take first)
      (nodup_keys_take second)]
    intro name
    rw [mem_keys_iff, mem_keys_iff]
    constructor
    · intro hSome hNone
      have hPerm := hValues name
      rw [hNone] at hPerm
      exact hSome hPerm.eq_nil
    · intro hSome hNone
      have hPerm := hValues name
      rw [hNone] at hPerm
      exact hSome hPerm.nil_eq.symm
  simpa using hKeys.length_eq

/-
  A snapshot is still good exactly if the message has the
  same headers, in any order.
-/
theorem isDirty_take_eq_false_iff
    (first second : Message) :
    (take (some first)).isDirty (take (some second)) = false ↔
      first.entries.Perm second.entries := by
  rw [isDirty_take_eq_false_iff_groups, perm_entries_iff]
  constructor
  · rintro ⟨_, hLength, hGroups⟩
    exact perm_valuesOf_of_groups hLength hGroups
  · intro hValues
    have hEntries := (perm_entries_iff first second).mpr hValues
    refine ⟨?_, length_groups_eq hValues, ?_⟩
    · simpa [Message.entries] using hEntries.length_eq
    · intro name values hGroup
      rw [(lookup_take_eq_iff first second name).mpr
        (hValues name)]
      exact (mem_groups_iff second name values).mp hGroup

end Snapshot

end MailFilter
