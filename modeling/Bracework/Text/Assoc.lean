/-
Lists of named values in the order in which the names were first given.

`put` changes such a list: a new name goes to the end, a known one keeps its
place and takes the new value.  `insert` does the same for a list that is sorted
by name: a new name goes where it belongs.
-/
namespace Bracework

/-- Named values in order. -/
abbrev Named (α : Type) : Type := List (String × α)

namespace Named

variable {α : Type}

/-- Gives a name a value. -/
def put (key : String) (value : α) : Named α → Named α
  | [] => [(key, value)]
  | (k, v) :: rest => if k = key then (k, value) :: rest else (k, v) :: put key value rest

/-- The list that arises from giving names their values one after the other. -/
def ofPairs (pairs : List (String × α)) : Named α :=
  pairs.foldl (fun named (key, value) => put key value named) []

/-- Gives a name a value in a list that is sorted by name. -/
def insert (key : String) (value : α) : Named α → Named α
  | [] => [(key, value)]
  | (k, v) :: rest =>
      if key < k then (key, value) :: (k, v) :: rest
      else if key = k then (key, value) :: rest
      else (k, v) :: insert key value rest

/-- The same named values sorted by name; the last of a repeated name wins. -/
def sorted (pairs : List (String × α)) : Named α :=
  pairs.foldl (fun named (key, value) => insert key value named) []

/-- A name has the value it was given last. -/
theorem lookup_put (key name : String) (value : α) (named : Named α) :
    (put key value named).lookup name = if name = key then some value else named.lookup name := by
  induction named with
  | nil =>
    by_cases h : name = key
    · simp [put, h]
    · simp [put, List.lookup_cons, h, beq_eq_false_iff_ne.mpr h]
  | cons p rest ih =>
    obtain ⟨k, v⟩ := p
    by_cases h : k = key
    · subst h
      by_cases hn : name = k
      · simp [put, hn]
      · simp [put, List.lookup_cons, hn, beq_eq_false_iff_ne.mpr hn]
    · by_cases hk : name = k
      · subst hk; simp [put, h]
      · simp [put, h, List.lookup_cons, ih, beq_eq_false_iff_ne.mpr hk]

/-- What a list has after a name is given a value, it had before or it is that value. -/
theorem mem_of_mem_put {x : String × α} {key : String} {value : α} {named : Named α}
    (h : x ∈ put key value named) : x ∈ named ∨ x = (key, value) := by
  induction named with
  | nil => exact .inr (List.mem_singleton.mp h)
  | cons p rest ih =>
    obtain ⟨k, v⟩ := p
    rw [put] at h
    split at h
    case isTrue hk =>
      rcases List.mem_cons.mp h with rfl | h
      · exact .inr (by rw [hk])
      · exact .inl (List.mem_cons_of_mem _ h)
    case isFalse =>
      rcases List.mem_cons.mp h with rfl | h
      · exact .inl List.mem_cons_self
      · exact (ih h).imp_left (List.mem_cons_of_mem _)

/-- A name has no value that it was not given. -/
theorem mem_of_mem_ofPairs {x : String × α} {pairs : List (String × α)} (h : x ∈ ofPairs pairs) :
    x ∈ pairs := by
  revert x
  -- what is there was there before the last pair, or is that pair
  refine List.foldlRecOn pairs _ (motive := fun named => ∀ {x}, x ∈ named → x ∈ pairs) ?_ ?_
  · intro x h
    exact absurd h List.not_mem_nil
  · intro named ih pair hpair x h
    rcases mem_of_mem_put h with h | rfl
    · exact ih h
    · exact hpair

end Named

end Bracework
