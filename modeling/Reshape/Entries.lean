/-! Named entries in insertion order. Writing a name that is already there replaces its value and
keeps its position; a new name goes to the end. Lists with a repeated name are not entries that
these operations build, but reading them is defined: the first one answers. -/
namespace Reshape

abbrev Entries (α : Type) := List (String × α)

namespace Entries
variable {α β : Type}

def get? : Entries α → String → Option α
  | [], _ => none
  | (k, v) :: rest, name => if k = name then some v else get? rest name

def put : Entries α → String → α → Entries α
  | [], name, value => [(name, value)]
  | (k, v) :: rest, name, value =>
    if k = name then (k, value) :: rest else (k, v) :: put rest name value

def keys (es : Entries α) : List String :=
  es.map (·.1)

def contains (es : Entries α) (name : String) : Bool :=
  es.any (·.1 = name)

def overlay (base top : Entries α) : Entries α :=
  top.foldl (fun es e => es.put e.1 e.2) base

def ofList (es : List (String × α)) : Entries α :=
  overlay [] es

def Distinct (es : Entries α) : Prop :=
  es.keys.Nodup

@[simp] theorem get?Nil (name : String) : get? ([] : Entries α) name = none := rfl

theorem get?Put (es : Entries α) (name other : String) (value : α) :
    (es.put name value).get? other = if name = other then some value else es.get? other := by
  induction es with
  | nil => simp [put, get?]
  | cons e rest ih =>
    obtain ⟨k, v⟩ := e
    by_cases same : k = name
    · subst same
      simp [put, get?]
      by_cases h : k = other <;> simp [h]
    · simp only [put, same, if_false, get?, ih]
      by_cases h : k = other
      · subst h
        simp [Ne.symm same]
      · simp [h]

theorem keysPut (es : Entries α) (name : String) (value : α) :
    (es.put name value).keys = if name ∈ es.keys then es.keys else es.keys ++ [name] := by
  induction es with
  | nil => simp [put, keys]
  | cons e rest ih =>
    obtain ⟨k, v⟩ := e
    by_cases same : k = name
    · subst same
      simp [put, keys]
    · simp only [keys, List.map_cons] at ih ⊢
      simp only [put, same, if_false, List.map_cons, ih, List.mem_cons]
      by_cases h : name ∈ rest.map (·.1) <;> simp [h, Ne.symm same]

theorem Distinct.put {es : Entries α} (h : es.Distinct) (name : String) (value : α) :
    (es.put name value).Distinct := by
  unfold Distinct at *
  rw [keysPut]
  split
  · exact h
  · rename_i fresh
    exact List.nodup_append.2 ⟨h, by simp, by
      intro a ha b hb
      simp at hb
      subst hb
      exact fun same => fresh (same ▸ ha)⟩

theorem Distinct.overlay {base : Entries α} (h : base.Distinct) (top : Entries α) :
    (base.overlay top).Distinct := by
  unfold Entries.overlay
  induction top generalizing base with
  | nil => exact h
  | cons e rest ih => exact ih (h.put e.1 e.2)

theorem distinctOfList (es : List (String × α)) : (ofList es).Distinct :=
  Distinct.overlay (by simp [Distinct, keys]) es

end Entries
end Reshape
