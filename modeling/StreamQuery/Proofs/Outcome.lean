import Mathlib.Data.List.Forall2
import StreamQuery.Error

/-!
# Outcomes that may be errors

When a computation that may fail succeeds, each of its steps has succeeded. These facts open
a computation step by step; nothing here knows what the steps do.
-/

namespace StreamQuery

variable {ε α β : Type}

theorem bind_eq_ok {first : Except ε α} {next : α → Except ε β} {b : β} :
    first >>= next = .ok b ↔ ∃ a, first = .ok a ∧ next a = .ok b := by
  constructor
  · intro both
    cases first with
    | error _ => cases both
    | ok a => exact ⟨a, rfl, both⟩
  · rintro ⟨a, rfl, last⟩
    exact last

theorem map_eq_ok {change : α → β} {first : Except ε α} {b : β} :
    change <$> first = .ok b ↔ ∃ a, first = .ok a ∧ change a = b := by
  constructor
  · intro changed
    cases first with
    | error _ => cases changed
    | ok a => exact ⟨a, rfl, Except.ok.inj changed⟩
  · rintro ⟨a, rfl, rfl⟩
    rfl

theorem mapM_ok_iff {f : α → Except ε β} {l : List α} :
    (∃ bs, l.mapM f = .ok bs) ↔ ∀ a ∈ l, ∃ b, f a = .ok b := by
  induction l with
  | nil => exact ⟨fun _ => by simp, fun _ => ⟨[], rfl⟩⟩
  | cons a rest ih =>
    rw [List.forall_mem_cons, ← ih, List.mapM_cons]
    constructor
    · rintro ⟨bs, h⟩
      obtain ⟨b, first, h⟩ := bind_eq_ok.mp h
      obtain ⟨others, later, _⟩ := bind_eq_ok.mp h
      exact ⟨⟨b, first⟩, others, later⟩
    · rintro ⟨⟨b, first⟩, others, later⟩
      exact ⟨b :: others, by rw [first, later]; rfl⟩

theorem mapM_cons_eq_ok {f : α → Except ε β} {a : α} {l : List α} {bs : List β} :
    (a :: l).mapM f = .ok bs ↔ ∃ b others, f a = .ok b ∧ l.mapM f = .ok others ∧ bs = b :: others := by
  rw [List.mapM_cons, bind_eq_ok]
  constructor
  · rintro ⟨b, first, h⟩
    obtain ⟨others, later, same⟩ := bind_eq_ok.mp h
    exact ⟨b, others, first, later, by cases same; rfl⟩
  · rintro ⟨b, others, first, later, rfl⟩
    exact ⟨b, first, by rw [later]; rfl⟩

theorem length_of_mapM {f : α → Except ε β} {l : List α} {bs : List β}
    (h : l.mapM f = .ok bs) : bs.length = l.length := by
  induction l generalizing bs with
  | nil => cases h; rfl
  | cons a rest ih =>
    obtain ⟨b, others, _, later, rfl⟩ := mapM_cons_eq_ok.mp h
    rw [List.length_cons, List.length_cons, ih later]

theorem ne_nil_of_mapM {f : α → Except ε β} {l : List α} {bs : List β} (h : l.mapM f = .ok bs)
    (nonempty : l ≠ []) : bs ≠ [] := by
  rw [← List.length_pos_iff, length_of_mapM h]
  exact List.length_pos_iff.mpr nonempty

/-- The results of a list of computations are theirs, place by place. -/
theorem mapM_eq_ok {f : α → Except ε β} {l : List α} {bs : List β} :
    l.mapM f = .ok bs ↔ List.Forall₂ (fun a b => f a = .ok b) l bs := by
  induction l generalizing bs with
  | nil =>
    rw [List.forall₂_nil_left_iff]
    exact ⟨fun h => by cases h; rfl, fun h => by rw [h]; rfl⟩
  | cons a rest ih =>
    rw [mapM_cons_eq_ok]
    constructor
    · rintro ⟨b, others, first, later, rfl⟩
      exact .cons first (ih.mp later)
    · rintro (_ | ⟨first, later⟩)
      exact ⟨_, _, first, ih.mpr later, rfl⟩

theorem mem_of_mapM {f : α → Except ε β} {l : List α} {bs : List β} (h : l.mapM f = .ok bs) :
    ∀ b ∈ bs, ∃ a ∈ l, f a = .ok b := by
  induction l generalizing bs with
  | nil => cases h; simp
  | cons a rest ih =>
    obtain ⟨b, others, first, later, rfl⟩ := mapM_cons_eq_ok.mp h
    rw [List.forall_mem_cons]
    refine ⟨⟨a, List.mem_cons_self, first⟩, fun one member => ?_⟩
    obtain ⟨source, inside, same⟩ := ih later one member
    exact ⟨source, List.mem_cons_of_mem _ inside, same⟩

theorem forM_eq_ok {check : α → Except ε Unit} {l : List α} :
    l.forM check = .ok () ↔ ∀ a ∈ l, check a = .ok () := by
  induction l with
  | nil => exact ⟨fun _ => by simp, fun _ => rfl⟩
  | cons a rest ih =>
    rw [List.forall_mem_cons, ← ih]
    exact bind_eq_ok.trans ⟨fun ⟨_, first, later⟩ => ⟨first, later⟩, fun ⟨first, later⟩ => ⟨(), first, later⟩⟩

theorem mapM_concat_eq_ok {f : α → Except ε β} {a : α} {l : List α} {bs : List β} :
    (l ++ [a]).mapM f = .ok bs ↔ ∃ others b, l.mapM f = .ok others ∧ f a = .ok b ∧ bs = others ++ [b] := by
  rw [List.mapM_append, bind_eq_ok]
  constructor
  · rintro ⟨others, first, h⟩
    obtain ⟨tail, last, same⟩ := bind_eq_ok.mp h
    obtain ⟨b, _, here, empty, rfl⟩ := mapM_cons_eq_ok.mp last
    cases empty
    exact ⟨others, b, first, here, by cases same; rfl⟩
  · rintro ⟨others, b, first, here, rfl⟩
    exact ⟨others, first, by rw [mapM_cons_eq_ok.mpr ⟨b, [], here, rfl, rfl⟩]; rfl⟩

theorem foldlM_concat_eq_ok {σ : Type} {f : σ → α → Except ε σ} {s t : σ} {a : α} {l : List α} :
    (l ++ [a]).foldlM f s = .ok t ↔ ∃ m, l.foldlM f s = .ok m ∧ f m a = .ok t := by
  rw [List.foldlM_append, bind_eq_ok]
  simp only [List.foldlM_cons, List.foldlM_nil, bind_pure]

/-- A fold fails at the first step that does, from what the steps before it have made. -/
theorem foldlM_eq_error {σ : Type} {f : σ → α → Except ε σ} {e : ε} {l : List α} :
    ∀ {s}, l.foldlM f s = .error e ↔
      ∃ before a after m, l = before ++ a :: after ∧ before.foldlM f s = .ok m ∧ f m a = .error e := by
  induction l with
  | nil =>
    intro s
    exact ⟨fun h => (nomatch h), fun ⟨before, a, after, _, split, _⟩ => absurd split (by simp)⟩
  | cons a rest ih =>
    intro s
    rw [List.foldlM_cons]
    cases first : f s a with
    | error e' =>
      constructor
      · intro same
        cases same
        exact ⟨[], a, rest, s, rfl, rfl, first⟩
      · rintro ⟨before, b, after, m, split, made, failed⟩
        cases before with
        | nil =>
          cases split
          cases made
          rw [← failed, first]
          rfl
        | cons c before =>
          cases split
          rw [List.foldlM_cons, first] at made
          cases made
    | ok t =>
      refine (ih (s := t)).trans ⟨?_, ?_⟩
      · rintro ⟨before, b, after, m, rfl, made, failed⟩
        exact ⟨a :: before, b, after, m, rfl, by rw [List.foldlM_cons, first]; exact made, failed⟩
      · rintro ⟨before, b, after, m, split, made, failed⟩
        cases before with
        | nil =>
          cases split
          cases made
          rw [first] at failed
          cases failed
        | cons c before =>
          cases split
          rw [List.foldlM_cons, first] at made
          exact ⟨before, b, after, m, rfl, made, failed⟩

/-- A fold whose steps can be followed in a view of its states can be followed there as a whole. -/
theorem foldlM_view {σ τ : Type} {view : σ → τ} {f : σ → α → Except ε σ} {g : τ → α → Except ε τ} {l : List α}
    (step : ∀ s, ∀ a ∈ l, g (view s) a = view <$> f s a) {s : σ} :
    l.foldlM g (view s) = view <$> l.foldlM f s := by
  induction l generalizing s with
  | nil => rfl
  | cons a rest ih =>
    rw [List.foldlM_cons, List.foldlM_cons, step s a List.mem_cons_self]
    cases f s a with
    | error e => rfl
    | ok t => exact ih fun s b member => step s b (List.mem_cons_of_mem a member)

theorem mapM_congr {f g : α → Except ε β} {l : List α} (agree : ∀ a ∈ l, f a = g a) :
    l.mapM f = l.mapM g := by
  induction l with
  | nil => rfl
  | cons a rest ih =>
    rw [List.mapM_cons, List.mapM_cons, agree a (by simp), ih fun b member => agree b (by simp [member])]

theorem forM_congr {f g : α → Except ε Unit} {l : List α} (agree : ∀ a ∈ l, f a = g a) :
    l.forM f = l.forM g := by
  induction l with
  | nil => rfl
  | cons a rest ih =>
    rw [List.forall_mem_cons] at agree
    show (f a >>= fun _ => rest.forM f) = (g a >>= fun _ => rest.forM g)
    rw [agree.1, ih agree.2]

theorem mapM_of_map {f : α → Except ε β} {one other : List α} (same : one.map f = other.map f) :
    one.mapM f = other.mapM f := by
  have outcomes : ∀ l : List α, l.mapM f = (l.map f).mapM id := fun _ => (List.mapM_map (f := f) (g := id)).symm
  rw [outcomes, outcomes, same]

theorem forM_of_map {f : α → Except ε Unit} {one other : List α} (same : one.map f = other.map f) :
    one.forM f = other.forM f := by
  have outcomes : ∀ l : List α, l.forM f = (l.map f).forM id := fun _ => (List.forM_map (g := f) (f := id)).symm
  rw [outcomes, outcomes, same]

/-- A list of computations whose first steps have succeeded goes on from their results. -/
theorem mapM_of_steps {γ : Type} {f : α → Except ε β} {g : α → Except ε γ} {next : β → Except ε γ}
    (step : ∀ a b, f a = .ok b → g a = next b) {l : List α} {bs : List β} (made : l.mapM f = .ok bs) :
    l.mapM g = bs.mapM next := by
  induction l generalizing bs with
  | nil =>
    cases made
    rfl
  | cons a rest ih =>
    obtain ⟨b, others, first, later, rfl⟩ := mapM_cons_eq_ok.mp made
    rw [List.mapM_cons, List.mapM_cons, step a b first, ih later]

/-- Two ways of computing a list agree as a whole if they agree at every place, up to what is
    made of the place before and of the outcome after. -/
theorem mapM_map {γ δ : Type} {f : α → Except ε β} {g : γ → Except ε δ} {before : α → γ} {after : δ → β}
    {l : List α} (agree : ∀ a ∈ l, f a = after <$> g (before a)) :
    l.mapM f = List.map after <$> (l.map before).mapM g := by
  induction l with
  | nil => rfl
  | cons a rest ih =>
    rw [List.forall_mem_cons] at agree
    rw [List.mapM_cons, agree.1, ih agree.2, List.map_cons, List.mapM_cons]
    cases g (before a) with
    | error e => rfl
    | ok d => cases (rest.map before).mapM g <;> rfl

theorem mapM_after {δ : Type} {f : α → Except ε β} {g : α → Except ε δ} {after : δ → β} {l : List α}
    (agree : ∀ a ∈ l, f a = after <$> g a) : l.mapM f = List.map after <$> l.mapM g := by
  have mapped : l.mapM f = List.map after <$> (l.map id).mapM g := mapM_map agree
  rwa [List.map_id] at mapped

end StreamQuery
