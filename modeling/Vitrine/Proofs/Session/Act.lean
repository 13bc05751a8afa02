import Vitrine.Proofs.Work
import Vitrine.Session.Scene

/-!
# What an act comes to

`Act.exec` is the result of an act and the scene behind it. An act that `Keeps` a property of scenes
keeps it however it ends; the rules below follow the way acts are put together.
-/
namespace Vitrine
namespace Act

variable {σ α β : Type}

/-- The result of an act on a scene, and the scene behind it. -/
def exec (a : Act σ α) (s : Scene σ) : Result α × Scene σ := a.run.run s

@[simp] theorem exec_pure (x : α) (s : Scene σ) : (pure x : Act σ α).exec s = (.ok x, s) := rfl

@[simp] theorem exec_throw (e : Error) (s : Scene σ) :
    (throw e : Act σ α).exec s = (.error e, s) := rfl

@[simp] theorem exec_get (s : Scene σ) : (get : Act σ (Scene σ)).exec s = (.ok s, s) := rfl

@[simp] theorem exec_modify (f : Scene σ → Scene σ) (s : Scene σ) :
    (modify f : Act σ Unit).exec s = (.ok (), f s) := rfl

@[simp] theorem exec_session (s : Scene σ) :
    (session : Act σ Session).exec s = (.ok s.session, s) := rfl

@[simp] theorem exec_server (s : Scene σ) :
    (server : Act σ DevServer).exec s = (.ok s.server, s) := rfl

@[simp] theorem exec_setSession (f : Session → Session) (s : Scene σ) :
    (setSession f : Act σ Unit).exec s = (.ok (), { s with session := f s.session }) := rfl

@[simp] theorem exec_setServer (f : DevServer → DevServer) (s : Scene σ) :
    (setServer f : Act σ Unit).exec s = (.ok (), { s with server := f s.server }) := rfl

@[simp] theorem exec_enter (phase : Phase) (s : Scene σ) :
    (enter phase : Act σ Unit).exec s =
      (.ok (), { s with session := { s.session with phase } }) := rfl

theorem exec_bind (a : Act σ α) (f : α → Act σ β) (s : Scene σ) :
    (a >>= f).exec s =
      match a.exec s with
      | (.ok x, t) => (f x).exec t
      | (.error e, t) => (.error e, t) := by
  show (ExceptT.bind a f).run.run s = _
  simp only [ExceptT.bind, ExceptT.run, ExceptT.mk, StateT.run, bind, StateT.bind, exec]
  cases ha : a s with
  | mk r t => cases r <;> rfl

theorem exec_bind_ok {a : Act σ α} {f : α → Act σ β} {s t : Scene σ} {x : α}
    (ha : a.exec s = (.ok x, t)) : (a >>= f).exec s = (f x).exec t := by
  rw [exec_bind, ha]

theorem exec_bind_error {a : Act σ α} {f : α → Act σ β} {s t : Scene σ} {e : Error}
    (ha : a.exec s = (.error e, t)) : (a >>= f).exec s = (.error e, t) := by
  rw [exec_bind, ha]

/-- What succeeds did so step by step. -/
theorem exec_bind_eq_ok {a : Act σ α} {f : α → Act σ β} {s u : Scene σ} {y : β}
    (he : (a >>= f).exec s = (.ok y, u)) :
    ∃ x t, a.exec s = (.ok x, t) ∧ (f x).exec t = (.ok y, u) := by
  rw [exec_bind] at he
  match ha : a.exec s with
  | (.error e, t) =>
    rw [ha] at he
    cases he
  | (.ok x, t) =>
    rw [ha] at he
    exact ⟨x, t, rfl, he⟩

theorem exec_work (w : Work α) (s : Scene σ) :
    (work w : Act σ α).exec s = ((w.exec s.host).1, { s with host := (w.exec s.host).2 }) := by
  have hrun : StateT.run (ExceptT.run w) s.host = w.exec s.host := rfl
  rw [work, exec_bind, exec_get]
  dsimp only
  rw [hrun]
  rcases w.exec s.host with ⟨_ | _, host⟩ <;> rfl

theorem exec_work_of {w : Work α} {s : Scene σ} {r : Result α} {h : Host}
    (hw : w.exec s.host = (r, h)) : (work w : Act σ α).exec s = (r, { s with host := h }) := by
  rw [exec_work, hw]

theorem exec_work_eq_ok {w : Work α} {s t : Scene σ} {x : α}
    (he : (work w : Act σ α).exec s = (.ok x, t)) :
    ∃ k, w.exec s.host = (.ok x, k) ∧ t = { s with host := k } := by
  rw [exec_work] at he
  obtain ⟨hx, rfl⟩ := Prod.mk.inj he
  exact ⟨_, Prod.ext hx rfl, rfl⟩

theorem exec_work_still {w : Work α} (hw : w.Still) (s : Scene σ) :
    (work w : Act σ α).exec s = (w.outcome s.host, s) :=
  exec_work_of (hw.exec_eq s.host)

theorem exec_tryCatch (a : Act σ α) (f : Error → Act σ α) (s : Scene σ) :
    (tryCatch a f).exec s =
      match a.exec s with
      | (.ok x, t) => (.ok x, t)
      | (.error e, t) => (f e).exec t := by
  show (ExceptT.tryCatch a f).run.run s = _
  simp only [ExceptT.tryCatch, ExceptT.run, ExceptT.mk, StateT.run, bind, StateT.bind, exec]
  cases ha : a s with
  | mk r t => cases r <;> rfl

theorem exec_outcome (a : Act σ α) (s : Scene σ) :
    (outcome a).exec s = (.ok (a.exec s).1, (a.exec s).2) := by
  rw [outcome, exec_tryCatch, exec_bind]
  match a.exec s with
  | (.ok x, t) => rfl
  | (.error e, t) => rfl

/-- An act whose outcome matters need not be the same, only end the same. -/
theorem exec_outcome_congr {a a' : Act σ α} {s t : Scene σ} (h : a.exec s = a'.exec t)
    (f : Result α → Act σ β) : (outcome a >>= f).exec s = (outcome a' >>= f).exec t := by
  rw [exec_bind_ok (exec_outcome a s), exec_bind_ok (exec_outcome a' t), h]

/-! ## Keeping a property -/

/-- An act after which a property of the scene still holds, whether it fails or not. -/
def Keeps (I : Scene σ → Prop) (a : Act σ α) : Prop := ∀ s, I s → I (a.exec s).2

variable {I : Scene σ → Prop}

theorem keeps_pure (x : α) : Keeps I (pure x : Act σ α) := fun _ hs => hs

theorem keeps_throw (e : Error) : Keeps I (throw e : Act σ α) := fun _ hs => hs

theorem keeps_get : Keeps I (get : Act σ (Scene σ)) := fun _ hs => hs

theorem keeps_session : Keeps I (session : Act σ Session) := fun _ hs => hs

theorem keeps_server : Keeps I (server : Act σ DevServer) := fun _ hs => hs

theorem keeps_modify {f : Scene σ → Scene σ} (hf : ∀ s, I s → I (f s)) :
    Keeps I (modify f : Act σ Unit) := hf

theorem keeps_setSession {f : Session → Session}
    (hf : ∀ s, I s → I { s with session := f s.session }) :
    Keeps I (setSession f : Act σ Unit) := hf

theorem keeps_setServer {f : DevServer → DevServer}
    (hf : ∀ s, I s → I { s with server := f s.server }) :
    Keeps I (setServer f : Act σ Unit) := hf

/-- What holds after the first act of a sequence and is kept by the rest. -/
theorem holds_bind {a : Act σ α} {f : α → Act σ β} {s : Scene σ} (ha : I (a.exec s).2)
    (hf : ∀ x, Keeps I (f x)) : I ((a >>= f).exec s).2 := by
  rw [exec_bind]
  match he : a.exec s with
  | (.error e, t) =>
    rw [he] at ha
    exact ha
  | (.ok x, t) =>
    rw [he] at ha
    exact hf x t ha

theorem Keeps.bind {a : Act σ α} {f : α → Act σ β} (ha : Keeps I a) (hf : ∀ x, Keeps I (f x)) :
    Keeps I (a >>= f) :=
  fun s hs => holds_bind (ha s hs) hf

/-- What holds of the end of a sequence whose first act keeps a property. -/
theorem Keeps.bind_ends {Q : Result β → Scene σ → Prop} {a : Act σ α} {f : α → Act σ β}
    (ha : Keeps I a) (herror : ∀ e s, I s → Q (.error e) s)
    (hf : ∀ x s, I s → Q ((f x).exec s).1 ((f x).exec s).2) (s : Scene σ) (hs : I s) :
    Q ((a >>= f).exec s).1 ((a >>= f).exec s).2 := by
  have hs' := ha s hs
  rw [exec_bind]
  match he : a.exec s with
  | (.error e, t) =>
    rw [he] at hs'
    exact herror e t hs'
  | (.ok x, t) =>
    rw [he] at hs'
    exact hf x t hs'

theorem Keeps.outcome {a : Act σ α} (ha : Keeps I a) : Keeps I (outcome a) := by
  intro s hs
  rw [exec_outcome]
  exact ha s hs

theorem Keeps.ite {c : Prop} [Decidable c] {a b : Act σ α} (ha : Keeps I a) (hb : Keeps I b) :
    Keeps I (if c then a else b) := by
  split
  · exact ha
  · exact hb

/-- A property that does not look at the log is kept by work that changes nothing else. -/
theorem keeps_work {w : Work α} (hw : w.Quiet)
    (hI : ∀ (s : Scene σ) logs, I s → I { s with host := s.host.withLogs logs }) :
    Keeps I (work w : Act σ α) := by
  intro s hs
  rw [exec_work]
  obtain ⟨logs, hl⟩ := hw s.host
  show I { s with host := (w.exec s.host).2 }
  rw [hl]
  exact hI s logs hs

/-! ## What an act ensures -/

/-- Something has come to a good end with one property, or to an error with another one. -/
def Ends (J : α → Scene σ → Prop) (E : Error → Scene σ → Prop) : Result α × Scene σ → Prop
  | (.ok x, t) => J x t
  | (.error e, t) => E e t

/-- What an act comes to from the scenes that have a property. -/
def Ensures (I : Scene σ → Prop) (a : Act σ α) (J : α → Scene σ → Prop)
    (E : Error → Scene σ → Prop) : Prop :=
  ∀ s, I s → Ends J E (a.exec s)

/-- No error, wherever it ends. -/
def never : Error → Scene σ → Prop := fun _ _ => False

variable {J : α → Scene σ → Prop} {K : β → Scene σ → Prop} {E : Error → Scene σ → Prop}
  {a : Act σ α}

/-- What never fails. -/
theorem Ends.ok {x : Result α × Scene σ} (h : Ends J never x) :
    ∃ a s, x = (.ok a, s) ∧ J a s := by
  match x, h with
  | (.ok a, s), h => exact ⟨a, s, rfl, h⟩
  | (.error e, s), h => exact h.elim

theorem ensures_pure {x : α} (h : ∀ s, I s → J x s) : Ensures I (pure x) J E := h

theorem ensures_throw {e : Error} (h : ∀ s, I s → E e s) : Ensures I (throw e) J E := h

theorem ensures_modify {f : Scene σ → Scene σ} (h : ∀ s, I s → I (f s)) :
    Ensures I (modify f) (fun _ => I) E := h

theorem ensures_setSession {f : Session → Session} {J : Scene σ → Prop}
    (h : ∀ s, I s → J { s with session := f s.session }) :
    Ensures I (setSession f) (fun _ => J) E := h

theorem ensures_setServer {f : DevServer → DevServer} {J : Scene σ → Prop}
    (h : ∀ s, I s → J { s with server := f s.server }) :
    Ensures I (setServer f) (fun _ => J) E := h

/-- Work of which nothing but its result matters. -/
theorem ensures_work (hI : ∀ (s : Scene σ) host, I s → I { s with host })
    (hE : ∀ e s, I s → E e s) (w : Work α) :
    Ensures I (work w) (fun x s => I s ∧ ∃ h k, w.exec h = (.ok x, k)) E := by
  intro s hs
  rw [exec_work]
  rcases hw : w.exec s.host with ⟨e | x, k⟩
  · exact hE e _ (hI s k hs)
  · exact ⟨hI s k hs, s.host, k, hw⟩

/-- Work that never fails. -/
theorem ensures_unfailing (hI : ∀ (s : Scene σ) host, I s → I { s with host }) {w : Work α}
    (hw : w.Fails fun _ => False) : Ensures I (work w) (fun _ => I) E := by
  intro s hs
  rw [exec_work]
  rcases he : w.exec s.host with ⟨e | x, k⟩
  · exact (hw s.host e (congrArg Prod.fst he)).elim
  · exact hI s k hs

theorem Ensures.bind {f : α → Act σ β} (ha : Ensures I a J E) (hf : ∀ x, Ensures (J x) (f x) K E) :
    Ensures I (a >>= f) K E := by
  intro s hs
  have hfirst := ha s hs
  rw [exec_bind]
  match he : a.exec s with
  | (.error e, t) =>
    rw [he] at hfirst
    exact hfirst
  | (.ok x, t) =>
    rw [he] at hfirst
    exact hf x t hfirst

theorem Ensures.ite {c : Prop} [Decidable c] {b : Act σ α} (ha : Ensures I a J E)
    (hb : Ensures I b J E) : Ensures I (if c then a else b) J E := by
  split
  · exact ha
  · exact hb

/-- What does not depend on the scene may be used on the way. -/
theorem Ensures.of_and {P : Prop} (h : P → Ensures I a J E) : Ensures (fun s => I s ∧ P) a J E :=
  fun s hs => h hs.2 s hs.1

/-- Of the session that is looked up, what is known of the scene is known. -/
theorem ensures_session {f : Session → Act σ β} (hf : ∀ s, I s → Ensures I (f s.session) K E) :
    Ensures I (session >>= f) K E := by
  intro s hs
  rw [exec_bind_ok (exec_session s)]
  exact hf s hs s hs

end Act
end Vitrine
