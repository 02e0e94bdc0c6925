namespace Foundation.Traces

-- What a computation leaves behind: its value or the text it stopped with, the
-- state, and the events it caused, also when it stopped.
structure Outcome (σ ε α : Type) where
  result : Except String α
  state : σ
  log : List ε

def Traced (σ ε α : Type) := σ → Outcome σ ε α

def Traced.pure (a : α) : Traced σ ε α := fun s => ⟨.ok a,s,[]⟩

def Traced.bind (m : Traced σ ε α) (next : α → Traced σ ε β) : Traced σ ε β := fun s =>
  match (m s).result with
  | .error text => ⟨.error text,(m s).state,(m s).log⟩
  | .ok a =>
      let later := next a (m s).state
      ⟨later.result,later.state,(m s).log ++ later.log⟩

instance : Monad (Traced σ ε) where
  pure := Traced.pure
  bind := Traced.bind

def stop (text : String) : Traced σ ε α := fun s => ⟨.error text,s,[]⟩

def ask (view : σ → α) : Traced σ ε α := fun s => ⟨.ok (view s),s,[]⟩

def change (move : σ → σ) : Traced σ ε Unit := fun s => ⟨.ok (),move s,[]⟩

def emit (event : σ → ε) : Traced σ ε Unit := fun s => ⟨.ok (),s,[event s]⟩

def require (condition : Prop) [Decidable condition] (text : String) : Traced σ ε Unit :=
  if condition then pure () else stop text

def demand (option : Option α) (text : String) : Traced σ ε α :=
  match option with
  | some a => pure a
  | none => stop text

def Always (property : ε → Prop) (m : Traced σ ε α) (s : σ) : Prop := ∀ event ∈ (m s).log, property event

section Rules
variable {property : ε → Prop} {s : σ}

theorem always_bind (m : Traced σ ε α) (next : α → Traced σ ε β) : Always property (m >>= next) s ↔
    Always property m s ∧ ∀ a, (m s).result = .ok a → Always property (next a) (m s).state := by
  change (∀ event ∈ (Traced.bind m next s).log, property event) ↔ _
  unfold Traced.bind
  cases (m s).result with
  | error text => exact ⟨fun all => ⟨all,fun a same => by cases same⟩,fun both => both.1⟩
  | ok a =>
      constructor
      · intro all
        refine ⟨fun event member => all event (List.mem_append_left _ member),?_⟩
        intro b same
        cases same
        exact fun event member => all event (List.mem_append_right _ member)
      · rintro ⟨first,later⟩ event member
        rcases List.mem_append.mp member with old | new
        · exact first event old
        · exact later a rfl event new

theorem bind_assoc (m : Traced σ ε α) (f : α → Traced σ ε β) (g : β → Traced σ ε γ) :
    (m >>= f) >>= g = m >>= fun a => f a >>= g := by
  funext s
  change Traced.bind (Traced.bind m f) g s = Traced.bind m (fun a => Traced.bind (f a) g) s
  unfold Traced.bind
  cases (m s).result with
  | error text => rfl
  | ok a =>
      dsimp only
      cases (f a (m s).state).result with
      | error text => rfl
      | ok b => simp [List.append_assoc]

theorem always_silent {m : Traced σ ε α} (silent : (m s).log = []) : Always property m s := by
  intro event member
  rw [silent] at member
  cases member

theorem always_silent_bind {m : Traced σ ε α} (next : α → Traced σ ε β) (stepped : m s = ⟨.ok a,t,[]⟩) :
    Always property (m >>= next) s ↔ Always property (next a) t := by
  rw [always_bind,stepped]
  constructor
  · intro both
    exact both.2 a rfl
  · intro later
    refine ⟨always_silent (by rw [stepped]),?_⟩
    intro b same
    cases same
    exact later

@[simp] theorem always_pure (a : α) : Always property (pure a : Traced σ ε α) s ↔ True :=
  iff_true_intro (always_silent rfl)

@[simp] theorem always_stop_bind (text : String) (next : α → Traced σ ε β) :
    Always property (stop text >>= next) s ↔ True := iff_true_intro (always_silent rfl)

@[simp] theorem always_pure_bind (a : α) (next : α → Traced σ ε β) :
    Always property (pure a >>= next) s ↔ Always property (next a) s := always_silent_bind next rfl

@[simp] theorem always_ask_bind (view : σ → α) (next : α → Traced σ ε β) :
    Always property (ask view >>= next) s ↔ Always property (next (view s)) s := always_silent_bind next rfl

@[simp] theorem always_change_bind (move : σ → σ) (next : Unit → Traced σ ε β) :
    Always property (change move >>= next) s ↔ Always property (next ()) (move s) := always_silent_bind next rfl

@[simp] theorem always_emit_bind (event : σ → ε) (next : Unit → Traced σ ε β) :
    Always property (emit event >>= next) s ↔ property (event s) ∧ Always property (next ()) s := by
  rw [always_bind]
  constructor
  · intro both
    exact ⟨both.1 (event s) (List.mem_singleton.mpr rfl),both.2 () rfl⟩
  · rintro ⟨here,later⟩
    refine ⟨?_,fun a _ => later⟩
    intro other member
    cases List.mem_singleton.mp member
    exact here

@[simp] theorem always_require_bind (condition : Prop) [Decidable condition] (text : String)
    (next : Unit → Traced σ ε β) :
    Always property (require condition text >>= next) s ↔ (condition → Always property (next ()) s) := by
  unfold require
  split
  · rename_i holds
    rw [always_pure_bind]
    exact ⟨fun all _ => all,fun all => all holds⟩
  · rename_i fails
    rw [always_stop_bind]
    exact iff_of_true trivial fun holds => absurd holds fails

@[simp] theorem always_demand_bind (option : Option α) (text : String) (next : α → Traced σ ε β) :
    Always property (demand option text >>= next) s ↔ ∀ a, option = some a → Always property (next a) s := by
  cases option with
  | none =>
      exact iff_of_true (always_silent rfl) fun a same => by cases same
  | some a =>
      refine (always_pure_bind a next).trans ⟨?_,fun all => all a rfl⟩
      intro all b same
      cases same
      exact all

end Rules

end Foundation.Traces
