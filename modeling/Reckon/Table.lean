/-!
Tables: values under text keys, in the order in which the keys were first entered. Main statement:
a key reads back what was put under it last (`value?_put`, `value?_putAll`).
-/

namespace Reckon

/-- Values under text keys, the oldest key first. -/
abbrev Table (α : Type) := List (String × α)

namespace Table

variable {α : Type}

/-- The value under a key. -/
def value? (key : String) : Table α → Option α
  | [] => none
  | (k, v) :: rest => if k = key then some v else value? key rest

/-- Replaces the value of a key where it stands, or enters a new key at the end. -/
def put (key : String) (value : α) : Table α → Table α
  | [] => [(key, value)]
  | (k, v) :: rest => if k = key then (k, value) :: rest else (k, v) :: put key value rest

/-- Takes a key out. -/
def remove (key : String) (t : Table α) : Table α := t.filter fun kv => kv.1 ≠ key

def has (key : String) (t : Table α) : Bool := (t.value? key).isSome

/-- Puts every pair of `new` in turn. -/
def putAll (t new : Table α) : Table α := new.foldl (fun t kv => t.put kv.1 kv.2) t

/-- The value entered last under a key. -/
def last? (key : String) (t : Table α) : Option α := Table.value? key t.reverse

/-- The pairs in the order of their keys' code points. -/
def sorted (t : Table α) : Table α := t.mergeSort fun a b => a.1 ≤ b.1

theorem value?_put (key other : String) (value : α) (t : Table α) :
    (t.put key value).value? other = if key = other then some value else t.value? other := by
  induction t with
  | nil => simp [put, value?]
  | cons kv rest ih =>
    obtain ⟨k, v⟩ := kv
    by_cases hk : k = key
    · subst hk
      by_cases ho : k = other <;> simp [put, value?, ho]
    · by_cases ho : k = other
      · subst ho; simp [put, value?, hk, Ne.symm hk]
      · simp [put, value?, hk, ho, ih]

theorem value?_append (key : String) (t u : Table α) :
    Table.value? key (t ++ u) = (t.value? key).or (u.value? key) := by
  induction t with
  | nil => rfl
  | cons kv rest ih =>
    obtain ⟨k, v⟩ := kv
    by_cases hk : k = key <;> simp [value?, hk, ih]

/-- What is put over a table hides what stood under the same keys, its last entry first. -/
theorem value?_putAll (key : String) (t new : Table α) :
    (t.putAll new).value? key = (last? key new).or (t.value? key) := by
  induction new generalizing t with
  | nil => rfl
  | cons kv rest ih =>
    obtain ⟨k, v⟩ := kv
    have step : t.putAll ((k, v) :: rest) = (t.put k v).putAll rest := rfl
    have last : last? key ((k, v) :: rest) = (last? key rest).or (value? key [(k, v)]) := by
      simp only [last?, List.reverse_cons, value?_append]
    rw [step, ih, value?_put, last, Option.or_assoc]
    by_cases hk : k = key <;> simp [value?, hk]

/-- What is read under a key stands in the table. -/
theorem mem_of_value? {key : String} {v : α} {t : Table α} (h : t.value? key = some v) :
    (key, v) ∈ t := by
  induction t with
  | nil => cases h
  | cons kv rest ih =>
    obtain ⟨k, u⟩ := kv
    by_cases hk : k = key
    · subst hk
      obtain rfl : u = v := by simpa [value?] using h
      exact List.mem_cons_self
    · exact List.mem_cons_of_mem _ (ih (by simpa [value?, hk] using h))

theorem mem_of_last? {key : String} {v : α} {t : Table α} (h : last? key t = some v) :
    (key, v) ∈ t :=
  List.mem_reverse.mp (mem_of_value? h)

theorem value?_remove_self (key : String) (t : Table α) : (t.remove key).value? key = none := by
  induction t with
  | nil => rfl
  | cons kv rest ih =>
    obtain ⟨k, v⟩ := kv
    by_cases hk : k = key
    · simpa [remove, hk] using ih
    · simpa [remove, value?, hk] using ih

end Table
end Reckon
