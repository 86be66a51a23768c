import Mathlib.Data.List.Forall2

/-!
Computations that may fail: what a success of a whole says of its parts, and when a list of them succeeds;
and computations that may fail but keep what they changed before.
-/

namespace TreeExport

theorem exists_of_bind_eq_ok {ε α β : Type} {first : Except ε α} {further : α → Except ε β} {result : β}
    (succeeded : first >>= further = .ok result) :
    ∃ value, first = .ok value ∧ further value = .ok result := by
  cases first with
  | error failure => exact absurd succeeded nofun
  | ok value => exact ⟨value, rfl, succeeded⟩

theorem bind_of_eq_ok {ε α β : Type} {first : Except ε α} {value : α} (succeeded : first = .ok value)
    (further : α → Except ε β) : first >>= further = further value := by
  rw [succeeded]
  rfl

@[simp]
theorem mapError_error {ε ε' α : Type} (change : ε → ε') (failure : ε) :
    (Except.error failure : Except ε α).mapError change = .error (change failure) :=
  rfl

@[simp]
theorem mapError_ok {ε ε' α : Type} (change : ε → ε') (value : α) :
    (Except.ok value : Except ε α).mapError change = .ok value :=
  rfl

theorem mapError_eq_ok {ε ε' α : Type} {first : Except ε α} {change : ε → ε'} {value : α}
    (succeeded : first.mapError change = .ok value) : first = .ok value := by
  cases first with
  | error failure => exact absurd succeeded nofun
  | ok other =>
      have same := Except.ok.inj succeeded
      rw [same]

theorem map_bind_eq {ε α β γ : Type} (first : Except ε α) (further : α → Except ε β) (change : β → γ) :
    (first >>= further).map change = first >>= fun value => (further value).map change := by
  cases first <;> rfl

theorem bind_eq_error_iff {ε α β : Type} {first : Except ε α} {further : α → Except ε β} {failure : ε} :
    first >>= further = .error failure ↔
      first = .error failure ∨ ∃ value, first = .ok value ∧ further value = .error failure := by
  cases first with
  | error other =>
      show Except.error other = .error failure ↔ _
      simp
  | ok value =>
      show further value = .error failure ↔ _
      simp

theorem bind_pure_eq_error_iff {ε α β : Type} {first : Except ε α} {change : α → β} {failure : ε} :
    (do return change (← first)) = Except.error failure ↔ first = .error failure :=
  bind_eq_error_iff.trans (or_iff_left nofun)

theorem mapError_eq_error_iff {ε ε' α : Type} {first : Except ε α} {change : ε → ε'} {failure : ε'} :
    first.mapError change = .error failure ↔
      ∃ cause, first = .error cause ∧ change cause = failure := by
  cases first <;> simp

theorem exists_bind_eq_ok_iff {ε α β : Type} {first : Except ε α} {further : α → Except ε β} :
    (∃ result, first >>= further = .ok result) ↔
      ∃ value, first = .ok value ∧ ∃ result, further value = .ok result := by
  constructor
  · rintro ⟨result, succeeded⟩
    obtain ⟨value, before, after⟩ := exists_of_bind_eq_ok succeeded
    exact ⟨value, before, result, after⟩
  · rintro ⟨value, before, result, after⟩
    exact ⟨result, by rw [bind_of_eq_ok before, after]⟩

theorem exists_pure_eq_ok {ε α : Type} (value : α) :
    (∃ result, (pure value : Except ε α) = .ok result) ↔ True :=
  ⟨fun _ => trivial, fun _ => ⟨value, rfl⟩⟩

theorem exists_map_eq_ok_iff {ε α β : Type} {first : Except ε α} {change : α → β} :
    (∃ result, first.map change = .ok result) ↔ ∃ value, first = .ok value := by
  cases first <;> simp [Except.map]

theorem exists_mapM_eq_ok {ε α β : Type} {items : List α} {f : α → Except ε β}
    (each : ∀ item ∈ items, ∃ result, f item = .ok result) :
    ∃ results, items.mapM f = .ok results := by
  induction items with
  | nil => exact ⟨[], rfl⟩
  | cons item items ih =>
      obtain ⟨result, first⟩ := each item List.mem_cons_self
      obtain ⟨results, others⟩ := ih fun other member => each other (List.mem_cons_of_mem item member)
      refine ⟨result :: results, ?_⟩
      rw [List.mapM_cons, first, others]
      rfl

theorem exists_mapM_eq_ok_iff {ε α β : Type} {items : List α} {f : α → Except ε β} :
    (∃ results, items.mapM f = .ok results) ↔ ∀ item ∈ items, ∃ result, f item = .ok result := by
  refine ⟨?_, exists_mapM_eq_ok⟩
  induction items with
  | nil => simp
  | cons item items ih =>
      rintro ⟨results, succeeded⟩
      rw [List.mapM_cons] at succeeded
      obtain ⟨result, first, succeeded⟩ := exists_of_bind_eq_ok succeeded
      obtain ⟨others, rest, _⟩ := exists_of_bind_eq_ok succeeded
      intro other member
      rcases List.mem_cons.mp member with rfl | later
      · exact ⟨result, first⟩
      · exact ih ⟨others, rest⟩ other later

theorem forall₂_of_mapM_eq_ok {ε α β : Type} {f : α → Except ε β} {items : List α}
    {results : List β} (succeeded : items.mapM f = .ok results) :
    List.Forall₂ (fun item result => f item = .ok result) items results := by
  induction items generalizing results with
  | nil =>
      have same := Except.ok.inj succeeded
      subst same
      exact .nil
  | cons item items ih =>
      rw [List.mapM_cons] at succeeded
      obtain ⟨result, first, succeeded⟩ := exists_of_bind_eq_ok succeeded
      obtain ⟨others, rest, last⟩ := exists_of_bind_eq_ok succeeded
      have same := Except.ok.inj last
      subst same
      exact .cons first (ih rest)

theorem mapM_eq_ok_iff {ε α β : Type} {f : α → Except ε β} {items : List α} {results : List β} :
    items.mapM f = .ok results ↔ List.Forall₂ (fun item result => f item = .ok result) items results := by
  refine ⟨forall₂_of_mapM_eq_ok, fun related => ?_⟩
  induction related with
  | nil => rfl
  | cons first _ ih =>
      rw [List.mapM_cons, bind_of_eq_ok first, bind_of_eq_ok ih]
      rfl

/-- Whether a computation fails in certain ways only, and gives certain values only. -/
def Yields {ε α : Type} (fails : ε → Prop) (holds : α → Prop) : Except ε α → Prop
  | .error failure => fails failure
  | .ok value => holds value

section Yields

variable {ε α β : Type} {fails : ε → Prop} {holds : α → Prop} {first : Except ε α}

theorem Yields.bind {further : α → Except ε β} {holds' : β → Prop} (yields : Yields fails holds first)
    (each : ∀ value, holds value → Yields fails holds' (further value)) :
    Yields fails holds' (first >>= further) := by
  cases first with
  | error failure => exact yields
  | ok value => exact each value yields

theorem Yields.mono {holds' : α → Prop} (yields : Yields fails holds first)
    (weaker : ∀ value, holds value → holds' value) : Yields fails holds' first := by
  cases first with
  | error failure => exact yields
  | ok value => exact weaker value yields

theorem Yields.map {change : α → β} {holds' : β → Prop} (yields : Yields fails holds first)
    (each : ∀ value, holds value → holds' (change value)) : Yields fails holds' (first.map change) := by
  cases first with
  | error failure => exact yields
  | ok value => exact each value yields

theorem yields_mapM {items : List α} {f : α → Except ε β} {holds : β → Prop}
    (each : ∀ item ∈ items, Yields fails holds (f item)) :
    Yields fails (fun results => results.length = items.length ∧ ∀ result ∈ results, holds result)
      (items.mapM f) := by
  induction items with
  | nil => exact ⟨rfl, nofun⟩
  | cons item items ih =>
      rw [List.forall_mem_cons] at each
      rw [List.mapM_cons]
      apply each.1.bind
      intro result here
      apply (ih each.2).bind
      rintro results ⟨length, later⟩
      exact ⟨congrArg (· + 1) length, List.forall_mem_cons.mpr ⟨here, later⟩⟩

end Yields

/-- Whether a computation with a state fails in certain ways only, keeps what holds of the state, and gives
certain values only. -/
def Keeps {ε σ α : Type} (fails : ε → Prop) (kept : σ → Prop) (holds : α → Prop)
    (work : StateT σ (Except ε) α) : Prop :=
  ∀ state, kept state → Yields fails (fun result => kept result.2 ∧ holds result.1) (work.run state)

section Keeps

variable {ε σ α β : Type} {fails : ε → Prop} {kept : σ → Prop} {holds : α → Prop} {holds' : β → Prop}
  {work : StateT σ (Except ε) α}

theorem keeps_pure {value : α} (held : holds value) : Keeps fails kept holds (pure value) :=
  fun _ before => ⟨before, held⟩

theorem keeps_throw {failure : ε} (shown : fails failure) : Keeps fails kept holds (throw failure) :=
  fun _ _ => shown

theorem Keeps.bind {further : α → StateT σ (Except ε) β} (keeps : Keeps fails kept holds work)
    (each : ∀ value, holds value → Keeps fails kept holds' (further value)) :
    Keeps fails kept holds' (work >>= further) := by
  intro state before
  rw [StateT.run_bind]
  exact (keeps state before).bind fun result after => each result.1 after.2 result.2 after.1

theorem Keeps.mono {holds' : α → Prop} (keeps : Keeps fails kept holds work)
    (weaker : ∀ value, holds value → holds' value) : Keeps fails kept holds' work :=
  fun state before => (keeps state before).mono fun result after => ⟨after.1, weaker result.1 after.2⟩

theorem Keeps.map {change : α → β} (keeps : Keeps fails kept holds work)
    (each : ∀ value, holds value → holds' (change value)) : Keeps fails kept holds' (change <$> work) := by
  rw [map_eq_pure_bind]
  exact keeps.bind fun value held => keeps_pure (each value held)

theorem run_bind_of_eq_ok {state later : σ} {value : α} (succeeded : work.run state = .ok (value, later))
    (further : α → StateT σ (Except ε) β) : (work >>= further).run state = (further value).run later := by
  rw [StateT.run_bind, succeeded]
  rfl

theorem keeps_ite {condition : Prop} [Decidable condition] {first second : StateT σ (Except ε) α}
    (keeps : condition → Keeps fails kept holds first) (keeps' : ¬ condition → Keeps fails kept holds second) :
    Keeps fails kept holds (if condition then first else second) := by
  split
  · exact keeps ‹_›
  · exact keeps' ‹_›

/-- What a computation reads of its state is one of which the kept holds. -/
theorem keeps_get : Keeps fails kept kept get :=
  fun _ before => ⟨before, before⟩

theorem keeps_modify {change : σ → σ} (each : ∀ state, kept state → kept (change state)) :
    Keeps fails kept (fun _ => True) (modify change) :=
  fun state before => ⟨each state before, trivial⟩

theorem keeps_mapM {items : List α} {f : α → StateT σ (Except ε) β}
    (each : ∀ item ∈ items, Keeps fails kept (fun _ => True) (f item)) :
    Keeps fails kept (fun _ => True) (items.mapM f) := by
  induction items with
  | nil => exact keeps_pure trivial
  | cons item items ih =>
      rw [List.forall_mem_cons] at each
      rw [List.mapM_cons]
      apply each.1.bind
      intro _ _
      exact (ih each.2).bind fun _ _ => keeps_pure trivial

theorem keeps_forIn {items : List α} {f : α → PUnit → StateT σ (Except ε) (ForInStep PUnit)}
    (each : ∀ item ∈ items, Keeps fails kept (fun _ => True) (f item ⟨⟩)) :
    Keeps fails kept (fun _ => True) (forIn items ⟨⟩ f) := by
  induction items with
  | nil => exact keeps_pure trivial
  | cons item items ih =>
      rw [List.forall_mem_cons] at each
      rw [List.forIn_cons]
      apply each.1.bind
      intro step _
      cases step with
      | done _ => exact keeps_pure trivial
      | yield _ => exact ih each.2

theorem keeps_foldlM {items : List α} {f : β → α → StateT σ (Except ε) β}
    (each : ∀ start, ∀ item ∈ items, Keeps fails kept (fun _ => True) (f start item)) (start : β) :
    Keeps fails kept (fun _ => True) (items.foldlM f start) := by
  induction items generalizing start with
  | nil => exact keeps_pure trivial
  | cons item items ih =>
      rw [List.foldlM_cons]
      apply (each start item List.mem_cons_self).bind
      intro next _
      exact ih (fun start other member => each start other (List.mem_cons_of_mem item member)) next

theorem keeps_findM? {items : List α} {f : α → StateT σ (Except ε) Bool}
    (each : ∀ item ∈ items, Keeps fails kept (fun _ => True) (f item)) :
    Keeps fails kept (fun _ => True) (items.findM? f) := by
  induction items with
  | nil => exact keeps_pure trivial
  | cons item items ih =>
      rw [List.forall_mem_cons] at each
      rw [List.findM?]
      apply each.1.bind
      intro found _
      cases found with
      | true => exact keeps_pure trivial
      | false => exact ih each.2

end Keeps

section State

variable {ε σ α β : Type} (work : ExceptT ε (StateM σ) α) (state : σ)

theorem run_bind (further : α → ExceptT ε (StateM σ) β) : (work >>= further).run state =
    match (work.run state).1 with
    | .ok value => (further value).run (work.run state).2
    | .error failure => (.error failure, (work.run state).2) := by
  show ExceptT.bindCont further (work.run state).1 (work.run state).2 = _
  cases (work.run state).1 <;> rfl

theorem run_tryCatch (handle : ε → ExceptT ε (StateM σ) α) : (tryCatch work handle).run state =
    match (work.run state).1 with
    | .ok value => (.ok value, (work.run state).2)
    | .error failure => (handle failure).run (work.run state).2 := by
  show (match (work.run state).1 with
    | .ok value => pure (.ok value)
    | .error failure => handle failure : StateM σ (Except ε α)) (work.run state).2 = _
  cases (work.run state).1 <;> rfl

omit α in
theorem run_get : (get : ExceptT ε (StateM σ) σ).run state = (.ok state, state) :=
  rfl

end State

end TreeExport
