import Mathlib.Data.List.Basic

/-
  Dictionaries in insertion order: an update of a key keeps
  its place, a new key goes last.

  Main declarations:
    * `Dict.set`
    * `Dict.update`
    * `Dict.lookup_set`
    * `Dict.keys_update`
    * `Dict.filter_update`
-/

namespace CrudAuth

namespace Registration

variable {K V : Type}

/- A dictionary, in its order. -/
abbrev Dict (K V : Type) := List (K × V)

namespace Dict

/- `dict.keys()` -/
def keys (dict : Dict K V) : List K :=
  dict.map Prod.fst

/- The entries whose key passes. -/
def restrict (keep : K → Bool) (dict : Dict K V) :
    Dict K V :=
  dict.filter fun item => keep item.1

/- A restriction keeps only allowed keys. -/
theorem keys_restrict
    {dict : Dict K V}
    {key : K}
    {keep : K → Bool}
    (hMem : key ∈ (restrict keep dict).keys) :
    key ∈ dict.keys ∧ keep key = true := by
  unfold keys restrict at hMem
  rcases List.mem_map.mp hMem with ⟨item, hItem, rfl⟩
  rcases List.mem_filter.mp hItem with ⟨hDict, hKeep⟩
  exact ⟨List.mem_map_of_mem hDict, hKeep⟩

theorem mem_keys_restrict
    {dict : Dict K V}
    {key : K}
    {keep : K → Bool}
    (hMem : key ∈ dict.keys)
    (hKeep : keep key = true) :
    key ∈ (restrict keep dict).keys := by
  rcases List.mem_map.mp hMem with ⟨item, hItem, rfl⟩
  exact List.mem_map_of_mem
    (List.mem_filter.mpr ⟨hItem, hKeep⟩)

variable [DecidableEq K]

/- `dict.get(key)` -/
def get (dict : Dict K V) (key : K) : Option V :=
  match dict with
  | [] => none
  | (other, value) :: rest =>
      if other = key then some value else get rest key

/- `dict[key] = value`, which keeps the key's place. -/
def set (dict : Dict K V) (key : K) (value : V) :
    Dict K V :=
  match dict with
  | [] => [(key, value)]
  | (other, old) :: rest =>
      if other = key then
        (key, value) :: rest
      else
        (other, old) :: set rest key value

/- `dict.update(other)` -/
def update (dict other : Dict K V) : Dict K V :=
  other.foldl (fun acc item => acc.set item.1 item.2) dict

variable {dict other : Dict K V}
variable {key key' : K}
variable {value : V}

/- What is read after a write. -/
theorem get_set :
    (set dict key value).get key' =
      if key = key' then some value else dict.get key' := by
  induction dict with
  | nil => rfl
  | cons item rest ih =>
      unfold set
      by_cases hSame : item.1 = key
      · subst hSame
        rw [if_pos rfl]
        by_cases hKey : item.1 = key'
        · simp [get, hKey]
        · simp [get, hKey]
      · rw [if_neg hSame]
        by_cases hItem : item.1 = key'
        · have hOther : ¬ key = key' := fun hEq =>
            hSame (hItem.trans hEq.symm)
          simp [get, hItem, hOther]
        · simp [get, hItem, ih]

/- An absent key has no value. -/
theorem get_of_not_mem
    (hKey : key ∉ dict.keys) :
    dict.get key = none := by
  induction dict with
  | nil => rfl
  | cons item rest ih =>
      unfold keys at hKey ih
      rw [List.map_cons, List.mem_cons, not_or] at hKey
      unfold get
      rw [if_neg (Ne.symm hKey.1)]
      exact ih hKey.2

theorem mem_keys_set
    (hMem : key' = key ∨ key' ∈ dict.keys) :
    key' ∈ (set dict key value).keys := by
  induction dict with
  | nil =>
      rcases hMem with rfl | hMem
      · exact List.mem_cons_self
      · cases hMem
  | cons item rest ih =>
      unfold set
      by_cases hSame : item.1 = key
      · rw [if_pos hSame]
        unfold keys at hMem ⊢
        rw [List.map_cons] at hMem ⊢
        rw [hSame] at hMem
        rcases hMem with rfl | hMem
        · exact List.mem_cons_self
        · exact hMem
      · rw [if_neg hSame]
        unfold keys at hMem ih ⊢
        rw [List.map_cons] at hMem ⊢
        rcases hMem with rfl | hMem
        · exact List.mem_cons_of_mem _ (ih (.inl rfl))
        · rcases List.mem_cons.mp hMem with rfl | hRest
          · exact List.mem_cons_self
          · exact List.mem_cons_of_mem _ (ih (.inr hRest))

/- An update loses no key. -/
theorem mem_keys_update
    (hMem : key ∈ dict.keys) :
    key ∈ (update dict other).keys := by
  induction other generalizing dict with
  | nil => exact hMem
  | cons item rest ih =>
      exact ih (mem_keys_set (.inr hMem))

/- A write to a dropped key is dropped. -/
theorem restrict_set
    {keep : K → Bool}
    (hKey : keep key = false) :
    restrict keep (set dict key value) =
      restrict keep dict := by
  unfold restrict
  induction dict with
  | nil => simp [set, hKey]
  | cons item rest ih =>
      unfold set
      by_cases hSame : item.1 = key
      · rw [if_pos hSame]
        simp [hKey, hSame]
      · rw [if_neg hSame]
        rw [List.filter_cons, List.filter_cons, ih]

/- Entries with other keys are left where they are. -/
theorem restrict_update
    {keep : K → Bool}
    (hKeys : ∀ key ∈ other.keys, keep key = false) :
    restrict keep (update dict other) =
      restrict keep dict := by
  induction other generalizing dict with
  | nil => rfl
  | cons item rest ih =>
      have hFirst : keep item.1 = false :=
        hKeys item.1 List.mem_cons_self
      have hRest : ∀ key ∈ keys rest, keep key = false :=
        fun key hMem =>
          hKeys key (List.mem_cons_of_mem _ hMem)
      have hStep :
          restrict keep
              (update (set dict item.1 item.2) rest) =
            restrict keep (set dict item.1 item.2) :=
        ih hRest
      exact hStep.trans (restrict_set hFirst)

end Dict

end Registration

end CrudAuth
