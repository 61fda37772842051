import Reshape.Proofs.Entries
/-! Entries that are written over one another. A name stands where it was written first and has the
value that was written last, so the names are those of the whole sequence without its repetitions. -/
namespace Reshape.Entries
variable {α : Type}

theorem get?Append (es fs : Entries α) (name : String) :
    get? (es ++ fs) name = (es.get? name).or (fs.get? name) := by
  induction es with
  | nil => rfl
  | cons e rest ih =>
    obtain ⟨key, value⟩ := e
    rw [List.cons_append, get?, get?]
    split
    · rfl
    · exact ih

theorem get?Overlay (base top : Entries α) (name : String) :
    (base.overlay top).get? name = (get? top.reverse name).or (base.get? name) := by
  induction top generalizing base with
  | nil => rfl
  | cons e rest ih =>
    obtain ⟨key, value⟩ := e
    change ((base.put key value).overlay rest).get? name = _
    rw [ih, get?Put, List.reverse_cons, get?Append, Option.or_assoc, get?, get?Nil]
    split <;> rfl

theorem get?OfList (es : List (String × α)) (name : String) :
    (ofList es).get? name = get? es.reverse name := by
  rw [ofList, get?Overlay, get?Nil, Option.or_none]

theorem Distinct.get?Reverse {es : Entries α} (distinct : es.Distinct) (name : String) :
    get? es.reverse name = es.get? name := by
  rw [← get?OfList, ofListDistinct distinct]

theorem lastLayer {layers : List (Entries α)} (distinct : ∀ es ∈ layers, es.Distinct)
    (name : String) :
    (ofList layers.flatten).get? name = layers.reverse.findSome? (get? · name) := by
  rw [get?OfList]
  induction layers with
  | nil => rfl
  | cons es rest ih =>
    obtain ⟨here, behind⟩ := List.forall_mem_cons.mp distinct
    rw [List.flatten_cons, List.reverse_append, get?Append, ih behind, here.get?Reverse,
      List.reverse_cons, List.findSome?_append, List.findSome?_singleton]

theorem distinctNames {names : List String} (distinct : names.Nodup) : names.eraseDups = names := by
  induction names with
  | nil => rfl
  | cons name rest ih =>
    obtain ⟨fresh, distinct⟩ := List.nodup_cons.mp distinct
    have others : rest.filter (fun other => !other == name) = rest :=
      List.filter_eq_self.mpr fun other member => by
        have different : other ≠ name := fun same => fresh (same ▸ member)
        simpa using different
    rw [List.eraseDups_cons, others, ih distinct]

theorem repeatedName {before : List String} {name : String} (taken : name ∈ before)
    (after : List String) : (before ++ name :: after).eraseDups = (before ++ after).eraseDups := by
  have skipped : List.removeAll (name :: after) before = List.removeAll after before := by
    rw [List.removeAll, List.filter_cons_of_neg (by simpa using taken)]
    rfl
  rw [List.eraseDups_append, List.eraseDups_append, skipped]

theorem Distinct.keysOverlay {base : Entries α} (distinct : base.Distinct) (top : Entries α) :
    (base.overlay top).keys = (base.keys ++ top.keys).eraseDups := by
  induction top generalizing base with
  | nil =>
    have names : base.keys ++ keys ([] : Entries α) = base.keys := List.append_nil _
    rw [names, distinctNames distinct]
    rfl
  | cons e rest ih =>
    obtain ⟨key, value⟩ := e
    have names : keys ((key, value) :: rest) = key :: keys rest := rfl
    change ((base.put key value).overlay rest).keys = _
    rw [ih (distinct.put key value), keysPut, names]
    split
    · rename_i taken
      rw [repeatedName taken]
    · rw [List.append_assoc, List.singleton_append]

theorem keysOfList (es : List (String × α)) : (ofList es).keys = (keys es).eraseDups := by
  have nothing : Distinct ([] : Entries α) := List.nodup_nil
  exact nothing.keysOverlay es

end Reshape.Entries
