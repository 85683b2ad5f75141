/-
Stun/Proofs/Wire/Building.lean

What is built does not remember what was there.

Building empties the message first, and a message that was emptied is a new one
in all its octets (`Message.reset_eq`), so of the old one only type and id come
into it.  Then the attributes are put in one after the other.  The first that is
refused ends this (`Attempt.all_map_eq_error_iff`), and since a refusal leaves no
trace, what is left is what the attributes before it made
(`Message.build_eq_error_iff`): the seals among them cover the same octets as if
the others had not been asked for.

Main result: what building makes of a message, whether it is refused or not, and
that a draft comes to the same (`Message.build_eq_fresh`).
-/
import Stun.Draft
import Stun.Proofs.Wire.Layout

namespace Stun

/-! ### Attempts one after the other -/

/-- **Attempts are refused together** exactly if the first ones are not and the
next one is. -/
theorem Attempt.all_map_eq_error_iff {α σ : Type} {f : α → Attempt σ} {xs : List α} {s s' : σ}
    {e : Error} :
    Attempt.all (xs.map f) s = (.error e, s') ↔ ∃ front x back s₁, xs = front ++ x :: back ∧
      Attempt.all (front.map f) s = (.ok (), s₁) ∧ f x s₁ = (.error e, s') := by
  constructor
  · intro h
    induction xs generalizing s with
    | nil => simp [Attempt.all] at h
    | cons x xs ih =>
      rw [List.map_cons, Attempt.all] at h
      rcases hx : f x s with ⟨e' | ⟨⟩, s₁⟩ <;> rw [hx] at h
      · exact ⟨[], x, xs, s, rfl, rfl, hx.trans h⟩
      · obtain ⟨front, y, back, s₂, rfl, hfront, hy⟩ := ih h
        refine ⟨x :: front, y, back, s₂, rfl, ?_, hy⟩
        rw [List.map_cons, Attempt.all, hx]
        exact hfront
  · rintro ⟨front, x, back, s₁, rfl, hfront, hx⟩
    induction front generalizing s with
    | nil =>
      obtain ⟨-, rfl⟩ := Prod.mk.inj hfront
      rw [List.nil_append, List.map_cons, Attempt.all, hx]
    | cons y front ih =>
      rw [List.map_cons, Attempt.all] at hfront
      rw [List.cons_append, List.map_cons, Attempt.all]
      rcases hy : f y s with ⟨e' | ⟨⟩, s₂⟩ <;> rw [hy] at hfront
      · cases hfront
      · exact ih hfront

/-! ### Drafts -/

namespace Draft

variable {d : Draft} {id : TransactionId}

/-- A draft comes to the message that its attributes build. -/
theorem buildWith_eq_ok_iff {m' : Message} : d.buildWith id = .ok m' ↔
    Message.build d.attributes (.new d.type (d.id?.getD id)) = (.ok (), m') := by
  rw [buildWith]
  rcases Message.build d.attributes (.new d.type (d.id?.getD id)) with ⟨e | ⟨⟩, m₁⟩ <;> simp

/-- A draft is refused for what its attributes are refused for. -/
theorem buildWith_eq_error_iff {e : Error} : d.buildWith id = .error e ↔
    ∃ m', Message.build d.attributes (.new d.type (d.id?.getD id)) = (.error e, m') := by
  rw [buildWith]
  rcases Message.build d.attributes (.new d.type (d.id?.getD id)) with ⟨e | ⟨⟩, m₁⟩ <;> simp

end Draft

namespace Message

variable {m m' : Message} {attributes : List Attribute} {e : Error}

/-! ### Building -/

/-- Of the message that was there, building keeps type and id. -/
theorem build_eq (attributes : List Attribute) (m : Message) :
    build attributes m = Attempt.all (attributes.map Attribute.addTo) (new m.type m.id) := by
  rw [build, reset_eq]

/-- What is built so far, refused or not, has a layout, and type and id of the message. -/
theorem layout_build (attributes : List Attribute) (m : Message) :
    (∃ appended, (build attributes m).2.Layout m.type.toWord [] appended) ∧
      (build attributes m).2.type = m.type ∧ (build attributes m).2.id = m.id := by
  have hl := layout_new m.type m.id
  obtain ⟨more, hl', htype, hid⟩ := (hl.appended_all attributes).layout hl
  rw [build_eq]
  exact ⟨⟨more, hl'⟩, htype, hid⟩

/-- **What is left of a refusal** is what the attributes before it made. -/
theorem build_eq_error_iff :
    build attributes m = (.error e, m') ↔ ∃ front a back, attributes = front ++ a :: back ∧
      build front m = (.ok (), m') ∧ a.addTo m' = (.error e, m') := by
  rw [build_eq, Attempt.all_map_eq_error_iff]
  constructor
  · rintro ⟨front, a, back, m₁, hsplit, hfront, ha⟩
    rw [← build_eq] at hfront
    obtain ⟨⟨appended, hl⟩, -⟩ := layout_build front m
    rw [hfront] at hl
    obtain rfl := hl.eq_of_addTo_error ha
    exact ⟨front, a, back, hsplit, hfront, ha⟩
  · rintro ⟨front, a, back, hsplit, hfront, ha⟩
    rw [build_eq] at hfront
    exact ⟨front, a, back, m', hsplit, hfront, ha⟩

/-- **What is built does not remember what was there.**  Whatever a message
holds, fields and octets that agree or not, building makes of it what it makes
of the new message with its type and id.  That is what a draft with this type,
this id and these attributes comes to.  Building is refused exactly if it could
be done with the attributes up to one that is then refused: the error is the one
of that attribute, and the message that is left is the one built without it and
those behind it.  So to build again is to build once. -/
theorem build_eq_fresh (m : Message) (attributes : List Attribute) {γ : Type} [RandomGen γ]
    (g : γ) :
    let draft : Draft := { type := m.type, id? := some m.id, attributes }
    build attributes m = build attributes (.new m.type m.id) ∧
    (∀ m', draft.build g = (.ok m', g) ↔ build attributes m = (.ok (), m')) ∧
    (∀ e, draft.build g = (.error e, g) ↔ ∃ m', build attributes m = (.error e, m')) ∧
    (∀ e m', build attributes m = (.error e, m') ↔
      ∃ front a back, attributes = front ++ a :: back ∧ build front m = (.ok (), m') ∧
        a.addTo m' = (.error e, m')) ∧
    build attributes (build attributes m).2 = build attributes m := by
  intro draft
  have hfresh : build attributes m = build attributes (.new m.type m.id) := by
    rw [build_eq, build_eq]
    rfl
  have hdraft : draft.build g = (draft.buildWith m.id, g) := rfl
  refine ⟨hfresh, fun m' => ?_, fun e => ?_, fun e m' => build_eq_error_iff, ?_⟩
  · rw [hdraft, Prod.mk.injEq, and_iff_left rfl, Draft.buildWith_eq_ok_iff, hfresh]
    exact Iff.rfl
  · rw [hdraft, Prod.mk.injEq, and_iff_left rfl, Draft.buildWith_eq_error_iff, hfresh]
    exact Iff.rfl
  · obtain ⟨-, htype, hid⟩ := layout_build attributes m
    rw [build_eq attributes (build attributes m).2, htype, hid, ← build_eq]

end Message

end Stun
