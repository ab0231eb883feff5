-- Results that may be errors. A chain of them succeeds where every link does, and an
-- optional text is read where it is there at all.

namespace Provisioning

variable {ε α β γ : Type}

theorem bind_eq_ok_iff {x : Except ε α} {f : α → Except ε β} {b : β} :
    (x >>= f) = .ok b ↔ ∃ a, x = .ok a ∧ f a = .ok b := by
  cases x <;> simp [bind, Except.bind]

theorem map_eq_ok_iff {x : Except ε α} {f : α → β} {b : β} :
    x.map f = .ok b ↔ ∃ a, x = .ok a ∧ f a = b := by
  cases x <;> simp [Except.map]

/-- Two results that are put together are both there. -/
theorem bind_map_eq_ok_iff {x : Except ε α} {y : Except ε β} {f : α → β → γ} {c : γ} :
    (x >>= fun a => y.map (f a)) = .ok c ↔ ∃ a b, x = .ok a ∧ y = .ok b ∧ c = f a b := by
  simp only [bind_eq_ok_iff, map_eq_ok_iff]
  constructor
  · rintro ⟨a, ha, b, hb, rfl⟩
    exact ⟨a, b, ha, hb, rfl⟩
  · rintro ⟨a, b, ha, hb, rfl⟩
    exact ⟨a, ha, b, hb, rfl⟩

/-- What an optional text is read as: nothing if it is not there. -/
def ReadsAs (read : String → Except ε α) (text : Option String) (value : Option α) : Prop :=
  text.map read = value.map .ok

theorem readsAs_none_iff {read : String → Except ε α} {value : Option α} :
    ReadsAs read none value ↔ value = none := by
  cases value <;> simp [ReadsAs]

theorem readsAs_some_iff {read : String → Except ε α} {text : String} {value : Option α} :
    ReadsAs read (some text) value ↔ ∃ a, read text = .ok a ∧ value = some a := by
  cases value <;> simp [ReadsAs]

end Provisioning
