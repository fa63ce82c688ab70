/-!
# Procedures that may throw

A procedure reads and changes a state and may throw; what it changed before the
throw stays changed. `Meets` is the partial specification of a procedure, with
one condition for each way to end. The rules follow the way procedures are put
together: sequence, throw, reading and changing the state, a loop over a list.
-/

namespace Procedures

variable {Error State α β : Type}

/-- Started where `before` holds, the procedure ends with `after` or throws with `thrown`. -/
def Meets (before : State → Prop) (p : EStateM Error State α) (after : α → State → Prop)
    (thrown : State → Prop) : Prop :=
  ∀ s, before s →
    match p s with
    | .ok a t => after a t
    | .error _ t => thrown t

/-- The procedure keeps what holds of the state, also when it throws. -/
def Keeps (holds : State → Prop) (p : EStateM Error State α) : Prop :=
  Meets holds p (fun _ => holds) holds

theorem get_run (s : State) : (get : EStateM Error State State) s = .ok s s := rfl

theorem set_run (s t : State) : (set t : EStateM Error State PUnit) s = .ok ⟨⟩ t := rfl

variable {before : State → Prop} {after : α → State → Prop} {thrown : State → Prop}

theorem Meets.pure {a : α} (done : ∀ s, before s → after a s) :
    Meets before (Pure.pure a : EStateM Error State α) after thrown :=
  done

theorem Meets.throw {e : Error} (left : ∀ s, before s → thrown s) :
    Meets before (throwThe Error e : EStateM Error State α) after thrown :=
  left

variable {p : EStateM Error State α} {next : α → EStateM Error State β} {final : β → State → Prop}

/-- A sequence is followed through what holds between its parts. -/
theorem Meets.bind (first : Meets before p after thrown)
    (second : ∀ a, Meets (after a) (next a) final thrown) :
    Meets before (p >>= next) final thrown := by
  intro s holds
  have ended := first s holds
  change match EStateM.bind p next s with
    | .ok a t => final a t
    | .error _ t => thrown t
  unfold EStateM.bind
  split at ended
  · rename_i a t result
    rw [result]
    exact second a t ended
  · rename_i e t result
    rw [result]
    exact ended

theorem Meets.returns {b : β} {left : State → Prop}
    (meets : Meets before p (fun _ => left) thrown) :
    Meets before (p >>= fun _ => Pure.pure b) (fun _ => left) thrown :=
  meets.bind fun _ => .pure fun _ holds => holds

theorem Meets.start (meets : Meets before p after thrown) {s : State}
    (holds : before s) : Meets (· = s) p after thrown := by
  rintro s rfl
  exact meets s holds

theorem Meets.run_bind {s t : State} {a : α} (run : p s = .ok a t)
    (rest : Meets (· = t) (next a) final thrown) : Meets (· = s) (p >>= next) final thrown := by
  rintro s rfl
  change match EStateM.bind p next s with
    | .ok a t => final a t
    | .error _ t => thrown t
  rw [EStateM.bind, run]
  exact rest t rfl

/-- The state is read: what follows is started in that very state. -/
theorem Meets.get_bind {next : State → EStateM Error State β}
    (rest : ∀ s, before s → Meets (· = s) (next s) final thrown) :
    Meets before (get >>= next) final thrown :=
  fun s holds => rest s holds s rfl

theorem Meets.set {t : State} {after : PUnit → State → Prop} (done : after ⟨⟩ t) :
    Meets before (MonadStateOf.set t : EStateM Error State PUnit) after thrown :=
  fun _ _ => done

theorem Meets.modify {change : State → State} {after : PUnit → State → Prop}
    (done : ∀ s, before s → after ⟨⟩ (change s)) :
    Meets before (modifyGet fun s => (⟨⟩, change s) : EStateM Error State PUnit) after thrown :=
  done

/-- The state is replaced: what follows is started in the new one. -/
theorem Meets.set_bind {t : State} {next : PUnit → EStateM Error State β}
    (rest : Meets (· = t) (next ⟨⟩) final thrown) :
    Meets before (MonadStateOf.set t >>= next) final thrown :=
  fun _ _ => rest t rfl

variable {before' thrown' : State → Prop} {after' : α → State → Prop}

theorem Meets.weaken (meets : Meets before p after thrown)
    (starts : ∀ s, before' s → before s) (ends : ∀ a s, after a s → after' a s)
    (leaves : ∀ s, thrown s → thrown' s) : Meets before' p after' thrown' := by
  intro s holds
  have ended := meets s (starts s holds)
  split at ended
  · exact ends _ _ ended
  · exact leaves _ ended

theorem Meets.and (first : Meets before p after thrown) (second : Meets before' p after' thrown') :
    Meets (fun s => before s ∧ before' s) p (fun a s => after a s ∧ after' a s)
      fun s => thrown s ∧ thrown' s := by
  intro s holds
  have ended := first s holds.1
  have ended' := second s holds.2
  cases result : p s <;> rw [result] at ended ended' <;> exact ⟨ended, ended'⟩

variable {l : List α} {body : α → EStateM Error State PUnit} {h : List α → State → Prop}

/-- A loop is followed through what holds before each element of the list. -/
theorem Meets.forM (step : ∀ a rest, Meets (h (a :: rest)) (body a) (fun _ => h rest) thrown) :
    Meets (h l) (l.forM body) (fun _ => h []) thrown := by
  induction l with
  | nil => exact fun _ start => start
  | cons a rest ih => exact Meets.bind (step a rest) fun _ => ih

theorem Meets.foldlM {body : β → α → EStateM Error State β} {b : β}
    (step : ∀ b a rest, Meets (h (a :: rest)) (body b a) (fun _ => h rest) thrown) :
    Meets (h l) (l.foldlM body b) (fun _ => h []) thrown := by
  induction l generalizing b with
  | nil => exact fun _ start => start
  | cons a rest ih => exact Meets.bind (step b a rest) fun b => ih

section Keeps

variable {holds : State → Prop}

theorem Keeps.pure {a : α} : Keeps holds (Pure.pure a : EStateM Error State α) :=
  Meets.pure fun _ start => start

theorem Keeps.throw {e : Error} : Keeps holds (throwThe Error e : EStateM Error State α) :=
  Meets.throw fun _ start => start

theorem Keeps.bind (first : Keeps holds p) (second : ∀ a, Keeps holds (next a)) :
    Keeps holds (p >>= next) :=
  Meets.bind first second

theorem Keeps.forM (each : ∀ a, Keeps holds (body a)) : Keeps holds (l.forM body) :=
  Meets.forM (h := fun _ => holds) fun a _ => each a

theorem Keeps.foldlM {body : β → α → EStateM Error State β} {b : β}
    (each : ∀ b, ∀ a ∈ l, Keeps holds (body b a)) : Keeps holds (l.foldlM body b) := by
  induction l generalizing b with
  | nil => exact Keeps.pure
  | cons a rest ih =>
    exact Keeps.bind (each b a List.mem_cons_self) fun _ =>
      ih fun b a later => each b a (.tail _ later)

end Keeps

end Procedures
