import Mathlib.Data.List.Forall2
import Mathlib.Data.List.Nodup
import Mathlib.Data.List.ReduceOption
import Reshape.Entries
/-! Membership in entries, and entries that are put together from distinct names: nothing is
overwritten then, so what comes out is what went in. -/
namespace Reshape.Entries
variable {α : Type}

theorem get?Member {es : Entries α} {name : String} {a : α}
    (found : es.get? name = some a) : (name, a) ∈ es := by
  induction es with
  | nil => cases found
  | cons e rest ih =>
    obtain ⟨key, value⟩ := e
    rw [Entries.get?] at found
    split at found
    · rename_i same
      cases found
      exact same ▸ List.mem_cons_self
    · exact List.mem_cons_of_mem _ (ih found)

theorem memberPut {es : Entries α} {name : String} {value : α}
    {e : String × α} (member : e ∈ es.put name value) : e ∈ es ∨ e = (name, value) := by
  induction es with
  | nil => exact .inr (List.mem_singleton.mp member)
  | cons f rest ih =>
    obtain ⟨key, other⟩ := f
    rw [Entries.put] at member
    split at member
    · rename_i same
      rcases List.mem_cons.mp member with rfl | member
      · exact .inr (by rw [same])
      · exact .inl (List.mem_cons_of_mem _ member)
    · rcases List.mem_cons.mp member with rfl | member
      · exact .inl List.mem_cons_self
      · exact (ih member).imp_left (List.mem_cons_of_mem _)

theorem memberOverlay {base top : Entries α} {e : String × α} (member : e ∈ base.overlay top) :
    e ∈ base ∨ e ∈ top := by
  induction top generalizing base with
  | nil => exact .inl member
  | cons f rest ih =>
    rcases ih member with before | behind
    · rcases memberPut before with inside | rfl
      · exact .inl inside
      · exact .inr List.mem_cons_self
    · exact .inr (List.mem_cons_of_mem _ behind)

theorem memberOfList {es : List (String × α)} {e : String × α} (member : e ∈ ofList es) : e ∈ es :=
  (memberOverlay member).resolve_left nofun

theorem putFresh {es : Entries α} {name : String} (fresh : name ∉ es.keys) (value : α) :
    es.put name value = es ++ [(name, value)] := by
  induction es with
  | nil => rfl
  | cons e rest ih =>
    obtain ⟨key, other⟩ := e
    have different : key ≠ name := fun same => fresh (same ▸ List.mem_cons_self)
    have freshBehind : name ∉ keys rest := fun taken => fresh (List.mem_cons_of_mem _ taken)
    rw [put, if_neg different, ih freshBehind, List.cons_append]

theorem overlayFresh {base top : Entries α} (distinct : Distinct (base ++ top)) :
    base.overlay top = base ++ top := by
  induction top generalizing base with
  | nil => exact (List.append_nil base).symm
  | cons e rest ih =>
    have split : base ++ e :: rest = (base ++ [e]) ++ rest := by simp
    have fresh : e.1 ∉ base.keys := by
      unfold Distinct keys at distinct
      rw [List.map_append] at distinct
      exact fun taken => List.disjoint_of_nodup_append distinct taken List.mem_cons_self
    have here : base.overlay (e :: rest) = (base.put e.1 e.2).overlay rest := rfl
    rw [split] at distinct ⊢
    rw [here, putFresh fresh, ih distinct]

theorem get?Fresh {es : Entries α} {name : String} (fresh : name ∉ es.keys) :
    es.get? name = none := by
  cases found : es.get? name with
  | none => rfl
  | some a => exact absurd (List.mem_map_of_mem (get?Member found)) fresh

theorem get?MapValues {β : Type} (f : α → β) (es : Entries α) (name : String) :
    get? (es.map fun e => (e.1, f e.2)) name = (es.get? name).map f := by
  induction es with
  | nil => rfl
  | cons e rest ih =>
    rw [List.map_cons, get?, get?, ih]
    split <;> rfl

theorem keysMapValues {β : Type} (f : α → β) (es : Entries α) :
    keys (es.map fun e => (e.1, f e.2)) = es.keys := by
  rw [keys, List.map_map]
  rfl

theorem Distinct.get?FilterValues {β : Type} (f : α → Option β) {es : Entries α}
    (distinct : es.Distinct) (name : String) :
    get? (es.filterMap fun e => (f e.2).map (e.1, ·)) name = (es.get? name).bind f := by
  induction es with
  | nil => rfl
  | cons e rest ih =>
    obtain ⟨key, value⟩ := e
    obtain ⟨fresh, distinct⟩ := List.nodup_cons.mp distinct
    have behind := ih distinct
    cases shown : f value with
    | none =>
      simp only [List.filterMap_cons, shown, Option.map_none, behind, get?]
      split
      · rename_i same
        rw [get?Fresh (same ▸ fresh), Option.bind_none, Option.bind_some, shown]
      · rfl
    | some w =>
      simp only [List.filterMap_cons, shown, Option.map_some, behind, get?]
      split
      · exact shown.symm
      · rfl

theorem lookupsSelected {names : List String} {selected : List (Option (String × α))}
    (named : List.Forall₂ (fun name s => ∀ e, s = some e → e.1 = name) names selected)
    (distinct : names.Nodup) :
    selected = names.map fun name => (get? selected.reduceOption name).map (name, ·) := by
  induction named with
  | nil => rfl
  | @cons name s names selected here behind ih =>
    obtain ⟨fresh, distinct⟩ := List.nodup_cons.mp distinct
    have ih := ih distinct
    rw [List.map_cons]
    cases s with
    | none =>
      have missing : get? selected.reduceOption name = none := by
        refine get?Fresh fun taken => fresh ?_
        obtain ⟨e, member, rfl⟩ := List.mem_map.mp taken
        obtain ⟨i, inside, same⟩ := List.getElem_of_mem (List.reduceOption_mem_iff.mp member)
        have inside' : i < names.length := behind.length_eq ▸ inside
        have key := behind.get inside' inside e (by simpa using same)
        exact key ▸ List.getElem_mem inside'
      rw [List.reduceOption_cons_of_none, missing, ← ih]
      rfl
    | some e =>
      obtain ⟨key, value⟩ := e
      obtain rfl : key = name := here _ rfl
      rw [List.reduceOption_cons_of_some]
      have others : selected = names.map fun name =>
          (get? ((key, value) :: selected.reduceOption) name).map (name, ·) := by
        refine ih.trans (List.map_congr_left fun other member => ?_)
        have different : key ≠ other := fun same => fresh (same ▸ member)
        rw [get?, if_neg different]
      rw [← others, get?, if_pos rfl]
      rfl

theorem ofListDistinct {es : Entries α} (distinct : es.Distinct) : ofList es = es :=
  overlayFresh distinct

theorem ofListFollowed {es : Entries α} (distinct : es.Distinct) (others : List (Entries α)) :
    ofList (es ++ others.flatten) = others.foldl overlay es := by
  have split : ofList (es ++ others.flatten) = (ofList es).overlay others.flatten :=
    List.foldl_append
  rw [split, ofListDistinct distinct, overlay, List.foldl_flatten]
  rfl

end Reshape.Entries
