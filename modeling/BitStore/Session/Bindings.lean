namespace BitStore

/-!
# Names and what they stand for

Bindings list names with their values.  `insert` puts a name in front and takes
out what it stood for, so a name occurs at most once.
-/

/-- Names with the values they stand for. -/
abbrev Bindings (α : Type) := List (String × α)

namespace Bindings

variable {α : Type}

/-- What a name stands for. -/
def get? (bindings : Bindings α) (name : String) : Option α :=
  bindings.lookup name

def erase (bindings : Bindings α) (name : String) : Bindings α :=
  bindings.filter fun binding => binding.1 != name

/-- The bindings with a name standing for a value. -/
def insert (bindings : Bindings α) (name : String) (value : α) : Bindings α :=
  (name, value) :: bindings.erase name

@[simp] theorem get?_insert_self (bindings : Bindings α) (name : String) (value : α) :
    (bindings.insert name value).get? name = some value := by
  simp [get?, insert]

theorem get?_erase (bindings : Bindings α) (name other : String) :
    (bindings.erase name).get? other =
      if other = name then none else bindings.get? other := by
  induction bindings with
  | nil => simp [get?, erase]
  | cons binding rest ih =>
      obtain ⟨key, value⟩ := binding
      simp only [get?, erase] at ih
      by_cases removed : key = name
      · subst removed
        by_cases found : other = key
        · simp [get?, erase, found] at ih ⊢
          exact ih
        · have different : (other == key) = false := by simpa using found
          simp [get?, erase, List.lookup_cons, different, found] at ih ⊢
          exact ih
      · by_cases found : other = key
        · simp [get?, erase, removed, found]
        · have different : (other == key) = false := by simpa using found
          simp [get?, erase, removed, List.lookup_cons, different, ih]

end Bindings
end BitStore
