import Vitrine.Proofs.Session.Delivery
import Vitrine.Proofs.Session.Steps

/-!
# Ending the dev server

How a session waits for its dev server while signals arrive between any two statements, the server
ends when it pleases and the clock shows what it pleases: the session answers the exit code of the
server, asks it to end only once there was a signal, and kills it once at most, when it was asked
and the time for that has run out since the first wait in vain behind a signal
(`supervise_protocol`). What happens when is told by notes, which are taken in the gaps.
-/
namespace Vitrine

/-- The exit code of a dev server, once a wait has come to it. -/
def Waited.exitCode : Waited → Option Int
  | .ended code => some code
  | .timedOut => none

namespace Session

variable {σ : Type}

/-! ## Notes -/

/-- What is noted in a gap, when all else has happened there. -/
structure Note where
  gap : Gap
  signal : Option Nat
  server : DevServer

/-- Surroundings in which notes are taken. -/
structure Notebook (σ : Type) where
  notes : List Note
  rest : σ

def noted (g : Gap) (t : Scene (Notebook σ)) : Scene (Notebook σ) :=
  { t with outside.notes := t.outside.notes ++ [⟨g, t.session.signal, t.server⟩] }

/-- What goes on in the gaps, and a note at the end of each. -/
def noting (gap : Gap → Act (Notebook σ) Unit) (g : Gap) : Act (Notebook σ) Unit := do
  gap g
  modify (noted g)

/-- The first wait in vain behind which a signal is found, as it is noted with the time. -/
def FirstLate (notes : List Note) (first : Note) : Prop :=
  ∃ before waited after left, notes = before ++ waited :: first :: after ∧
    waited.gap = .waited left ∧ waited.signal ≠ none ∧ first.gap = .late left ∧
    ∀ x ∈ before, ∀ left, x.gap = .waited left → x.signal = none

/-- Behind a wait in vain, when so much had been asked of the server, it was time to kill it. -/
def IsOverdue (notes : List Note) (requests : List Request) : Prop :=
  ∃ before first waited late warned after left,
    notes = before ++ waited :: late :: warned :: after ∧ FirstLate before first ∧
    waited.gap = .waited left ∧ late.gap = .late left ∧ warned.gap = .warned left ∧
    warned.server.requests = requests ∧ first.server.clock + grace ≤ late.server.clock

theorem FirstLate.append {notes : List Note} {first : Note} (h : FirstLate notes first)
    (more : List Note) : FirstLate (notes ++ more) first := by
  obtain ⟨before, waited, after, left, rfl, hnotes⟩ := h
  exact ⟨before, waited, after ++ more, left, by simp, hnotes⟩

theorem IsOverdue.append {notes : List Note} {requests : List Request}
    (h : IsOverdue notes requests) (more : List Note) : IsOverdue (notes ++ more) requests := by
  obtain ⟨before, first, waited, late, warned, after, left, rfl, hnotes⟩ := h
  exact ⟨before, first, waited, late, warned, after ++ more, left, by simp, hnotes⟩

/-! ## What goes on meanwhile -/

/-- Something happens around a session that neither asks anything of its dev server nor is a signal.
The server may end or change how long it will last, and the clock may show any time. -/
structure Passes (t u : Scene (Notebook σ)) : Prop where
  phase : u.session.phase = t.session.phase
  started : u.session.started = t.session.started
  signal : u.session.signal = t.session.signal
  requests : u.server.requests = t.server.requests
  ended : u.server.ended = t.server.ended ∨ t.server.ended = none
  notes : u.outside.notes = t.outside.notes

/-- Any number of signals and of other things that happen, one after the other and in between the
statements that handle a signal. -/
inductive Happens (script : Script (Notebook σ)) : Act (Notebook σ) Unit → Prop
  | none : Happens script (pure ())
  | happening {f : Scene (Notebook σ) → Scene (Notebook σ)} {rest : Act (Notebook σ) Unit}
      (passes : ∀ t, Passes t (f t)) (after : Happens script rest) :
      Happens script (modify f >>= fun _ => rest)
  | signal {pause : Instant → Act (Notebook σ) Unit} {rest : Act (Notebook σ) Unit} (n : Nat)
      (within : ∀ p, Happens script (pause p)) (after : Happens script rest) :
      Happens script (receiveBetween script pause n >>= fun _ => rest)

/-- A dev server that can be waited for, with signals and other things that happen meanwhile. If it
is seen to have ended during a wait, the wait ends with the same code. -/
structure Awaitable (script : Script (Notebook σ)) : Prop where
  onTermination : ∀ t, Passes t (script.onTermination t)
  duringWait : ∀ n, ∃ a, Happens script a ∧ ∀ t, script.duringWait n t = (a.exec t).2
  settles : ∀ n t code, t.server.ended = none → (script.duringWait n t).server.ended = some code →
    ((script.duringWait n t).server.settleWait script.ignoresTermination script.exitCode
      (some waitSpan)).1 = .ended code
  waitFails : script.waitFails = false

/-- A session that waits for its dev server. -/
structure IsWaiting (t : Scene (Notebook σ)) : Prop where
  phase : t.session.phase = .active
  started : t.session.started = true

/-- The dev server was asked to end, or it has ended. -/
def IsEnding (t : Scene (Notebook σ)) : Prop :=
  .terminate ∈ t.server.requests ∨ t.server.ended ≠ none

/-- A signal that has arrived was heeded. -/
def Heeded (t : Scene (Notebook σ)) : Prop := t.session.signal ≠ none → IsEnding t

/-- What leads from one scene to another without a kill: more was asked of the dev server, and
without a signal it was only waited for. -/
structure Onward (t u : Scene (Notebook σ)) (asked : List Request) : Prop where
  phase : u.session.phase = t.session.phase
  started : u.session.started = t.session.started
  requests : u.server.requests = t.server.requests ++ asked
  alive : .kill ∉ asked
  silent : u.session.signal = none →
    t.session.signal = none ∧ ∀ q ∈ asked, q = .wait (some waitSpan)
  ended : u.server.ended = t.server.ended ∨ t.server.ended = none
  notes : u.outside.notes = t.outside.notes

variable {script : Script (Notebook σ)} {gap : Gap → Act (Notebook σ) Unit}
  {a : Act (Notebook σ) Unit} {pause : Instant → Act (Notebook σ) Unit}
  {t u v : Scene (Notebook σ)} {asked asked' : List Request}

theorem Passes.onward (h : Passes t u) : Onward t u [] where
  phase := h.phase
  started := h.started
  requests := h.requests.trans (List.append_nil _).symm
  alive := List.not_mem_nil
  silent := fun hu => ⟨h.signal.symm.trans hu, List.forall_mem_nil _⟩
  ended := h.ended
  notes := h.notes

namespace Onward

theorem refl (t : Scene (Notebook σ)) : Onward t t [] :=
  Passes.onward ⟨rfl, rfl, rfl, rfl, Or.inl rfl, rfl⟩

theorem trans (h : Onward t u asked) (h' : Onward u v asked') :
    Onward t v (asked ++ asked') where
  phase := h'.phase.trans h.phase
  started := h'.started.trans h.started
  requests := by rw [h'.requests, h.requests, List.append_assoc]
  alive := fun hmem => (List.mem_append.mp hmem).elim h.alive h'.alive
  silent := fun hv =>
    have ⟨hu, hasked'⟩ := h'.silent hv
    have ⟨ht, hasked⟩ := h.silent hu
    ⟨ht, List.forall_mem_append.mpr ⟨hasked, hasked'⟩⟩
  ended := by
    rcases h.ended with hended | hended
    · rw [← hended]
      exact h'.ended
    · exact Or.inr hended
  notes := h'.notes.trans h.notes

theorem isWaiting (h : Onward t u asked) (ht : IsWaiting t) : IsWaiting u :=
  ⟨h.phase.trans ht.phase, h.started.trans ht.started⟩

/-- A signal is not forgotten. -/
theorem signal (h : Onward t u asked) (ht : t.session.signal ≠ none) : u.session.signal ≠ none :=
  fun hu => ht (h.silent hu).1

theorem mem_requests (h : Onward t u asked) {q : Request} (ht : q ∈ t.server.requests) :
    q ∈ u.server.requests := by
  rw [h.requests]
  exact List.mem_append_left _ ht

theorem isEnding (h : Onward t u asked) (ht : IsEnding t) : IsEnding u := by
  refine ht.imp h.mem_requests fun hended => ?_
  rcases h.ended with hsame | hnone
  · rwa [hsame]
  · exact absurd hnone hended

/-- A signal is remembered. -/
theorem of_signal (t : Scene (Notebook σ)) (n : Nat) :
    Onward t { t with session := { t.session with signal := some n } } [] :=
  ⟨rfl, rfl, (List.append_nil _).symm, List.not_mem_nil, fun h => (Option.some_ne_none n h).elim,
    Or.inl rfl, rfl⟩

end Onward

/-! ## Signals -/

/-- What a session goes on from without failure, whatever happens meanwhile. -/
def Leads (a : Act (Notebook σ) Unit) : Prop :=
  ∀ t, IsWaiting t → ∃ u asked, a.exec t = (.ok (), u) ∧ Onward t u asked

theorem note_leads (hp : ∀ p, Leads (pause p)) (n : Nat) (h : IsWaiting t) :
    ∃ u asked, (note pause n).exec t = (.ok (), u) ∧ Onward t u asked ∧
      u.session.signal ≠ none := by
  obtain ⟨t₁, asked₁, ht₁, h₁⟩ := hp .called t h
  rw [note, Act.exec_bind_ok ht₁, Act.exec_bind_ok (Act.exec_session t₁)]
  cases hsignal : t₁.session.signal with
  | some m => exact ⟨t₁, asked₁, rfl, h₁, by simp [hsignal]⟩
  | none =>
    obtain ⟨t₂, asked₂, ht₂, h₂⟩ := hp .unnoted t₁ (h₁.isWaiting h)
    refine ⟨_, _, ?_, (h₁.trans h₂).trans (.of_signal t₂ n), Option.some_ne_none n⟩
    show (pause .unnoted >>= _ : Act _ _).exec t₁ = _
    rw [Act.exec_bind_ok ht₂, Act.exec_setSession]

theorem terminate_leads (hs : Awaitable script) (h : t.session.signal ≠ none) :
    ∃ u, (terminate script).exec t = (.ok (), u) ∧ Onward t u [.terminate] ∧
      .terminate ∈ u.server.requests := by
  let t' : Scene (Notebook σ) :=
    { t with server := { t.server.request .terminate with terminated := true } }
  have hasked : Onward t t' [.terminate] :=
    ⟨rfl, rfl, rfl, by decide, fun hu => absurd hu h, Or.inl rfl, rfl⟩
  have hmem : Request.terminate ∈ t'.server.requests := List.mem_concat_self
  refine ⟨_, terminate_exec t, ?_⟩
  show Onward t (ite _ t' _) _ ∧ _ ∈ (ite _ t' _ : Scene (Notebook σ)).server.requests
  split
  · exact ⟨hasked, hmem⟩
  · have hpassed := (hs.onTermination t').onward
    exact ⟨hasked.trans hpassed, hpassed.mem_requests hmem⟩

theorem obey_leads (hs : Awaitable script) (hp : ∀ p, Leads (pause p)) (n : Nat) (h : IsWaiting t)
    (hsignal : t.session.signal ≠ none) :
    ∃ u asked, (obey script pause n).exec t = (.ok (), u) ∧ Onward t u asked ∧ IsEnding u := by
  obtain ⟨t₁, asked₁, ht₁, h₁⟩ := hp .heard t h
  obtain ⟨t₂, asked₂, ht₂, h₂⟩ := hp .asking t₁ (h₁.isWaiting h)
  have h₁₂ := h₁.trans h₂
  rw [obey, Act.exec_bind_ok (Act.exec_session t), if_neg (by simp [h.phase]),
    Act.exec_bind_ok ht₁, Act.exec_bind_ok (Act.exec_session t₁),
    if_pos (h₁.isWaiting h).started, Act.exec_bind_ok ht₂, Act.exec_bind_ok (Act.exec_server t₂)]
  cases hended : t₂.server.ended with
  | some code => exact ⟨t₂, _, rfl, h₁₂, Or.inr (by simp [hended])⟩
  | none =>
    obtain ⟨t₃, asked₃, ht₃, h₃⟩ := hp .ending t₂ (h₁₂.isWaiting h)
    obtain ⟨u, hu, honward, hmem⟩ := terminate_leads hs ((h₁₂.trans h₃).signal hsignal)
    refine ⟨u, _, ?_, (h₁₂.trans h₃).trans honward, Or.inl hmem⟩
    show (pause .ending >>= _ : Act _ _).exec t₂ = _
    rw [Act.exec_bind_ok ht₃, hu]

/-- Whatever happens, a signal is heeded. -/
theorem Happens.leads (ha : Happens script a) (hs : Awaitable script) (h : IsWaiting t) :
    ∃ u asked, a.exec t = (.ok (), u) ∧ Onward t u asked ∧ (Heeded t → Heeded u) := by
  induction ha generalizing t with
  | none => exact ⟨t, [], rfl, .refl t, id⟩
  | happening passes _ ih =>
    have hpassed := passes t
    obtain ⟨u, asked, hu, honward, hheeded⟩ := ih (hpassed.onward.isWaiting h)
    refine ⟨u, _, ?_, hpassed.onward.trans honward, fun ht => hheeded fun hsignal => ?_⟩
    · rw [Act.exec_bind_ok (Act.exec_modify _ t), hu]
    · rw [hpassed.signal] at hsignal
      exact hpassed.onward.isEnding (ht hsignal)
  | @signal pause _ n _ _ ihwithin ih =>
    have hp : ∀ p, Leads (pause p) := fun p t ht =>
      have ⟨u, asked, hu, honward, _⟩ := ihwithin p ht
      ⟨u, asked, hu, honward⟩
    obtain ⟨t₁, asked₁, ht₁, h₁, hsignal₁⟩ := note_leads hp n h
    obtain ⟨t₂, asked₂, ht₂, h₂⟩ := hp .noted t₁ (h₁.isWaiting h)
    have h₁₂ := h₁.trans h₂
    obtain ⟨t₃, asked₃, ht₃, h₃, hending⟩ :=
      obey_leads hs hp n (h₁₂.isWaiting h) (h₂.signal hsignal₁)
    have h₁₃ := h₁₂.trans h₃
    obtain ⟨u, asked, hu, honward, hheeded⟩ := ih (h₁₃.isWaiting h)
    refine ⟨u, _, ?_, h₁₃.trans honward, fun _ => hheeded fun _ => hending⟩
    rw [receiveBetween, bind_assoc, Act.exec_bind_ok ht₁, bind_assoc, Act.exec_bind_ok ht₂,
      Act.exec_bind_ok ht₃, hu]

/-! ## Waiting -/

/-- A wait that is under way answers how the dev server has ended. -/
theorem settleWait_ended (s : DevServer) (ignores : Bool) (exitCode : Int)
    (limit : Option Milliseconds)
    (h : ∀ code, s.ended = some code → (s.settleWait ignores exitCode limit).1 = .ended code) :
    (s.settleWait ignores exitCode limit).2.requests = s.requests ∧
      (s.settleWait ignores exitCode limit).2.ended =
        (s.settleWait ignores exitCode limit).1.exitCode := by
  revert h
  unfold DevServer.settleWait
  split
  · exact fun _ => ⟨rfl, rfl⟩
  · split
    · exact fun _ => ⟨rfl, rfl⟩
    · split
      · refine fun h => ⟨rfl, Option.eq_none_iff_forall_ne_some.mpr fun code hcode => ?_⟩
        cases h code hcode
      · exact fun _ => ⟨rfl, rfl⟩

/-- A wait answers how the dev server has ended. -/
theorem wait_leads (hs : Awaitable script) (h : IsWaiting t) :
    ∃ w u asked, (wait script (some waitSpan)).exec t = (.ok w, u) ∧ Onward t u asked ∧
      (Heeded t → Heeded u) ∧ u.server.ended = w.exitCode := by
  have hwaits : Onward t { t with server := t.server.request (.wait (some waitSpan)) }
      [.wait (some waitSpan)] :=
    ⟨rfl, rfl, rfl, by decide, fun hu => ⟨hu, by simp⟩, Or.inl rfl, rfl⟩
  cases hended : t.server.ended with
  | some code =>
    exact ⟨_, _, _, wait_of_ended hended _, hwaits,
      fun ht hsignal => hwaits.isEnding (ht hsignal), hended⟩
  | none =>
    let t₁ : Scene (Notebook σ) := { t with
      server := { t.server.request (.wait (some waitSpan)) with waits := t.server.waits + 1 } }
    have h₁ : Onward t t₁ [.wait (some waitSpan)] :=
      ⟨rfl, rfl, rfl, by decide, hwaits.silent, Or.inl rfl, rfl⟩
    obtain ⟨a, ha, hduring⟩ := hs.duringWait t.server.waits
    obtain ⟨t₂, asked, ht₂, h₂, hheeded⟩ := ha.leads hs (h₁.isWaiting h)
    have hsettles := fun code => hs.settles t.server.waits t₁ code hended
    rw [hduring, ht₂] at hsettles
    obtain ⟨hrequests, hcode⟩ := settleWait_ended _ _ _ _ hsettles
    generalize hsettle : t₂.server.settleWait script.ignoresTermination script.exitCode
      (some waitSpan) = settled at hsettles hrequests hcode
    have hsettled : Passes t₂ { t₂ with server := settled.2 } := by
      refine ⟨rfl, rfl, rfl, hrequests, ?_, rfl⟩
      cases hended₂ : t₂.server.ended with
      | none => exact Or.inr rfl
      | some code =>
        rw [hsettles code hended₂] at hcode
        exact Or.inl hcode
    refine ⟨settled.1, _, _, ?_, (h₁.trans h₂).trans hsettled.onward, fun ht hsignal => ?_, hcode⟩
    · rw [wait_of_running hended, endWait, Act.exec_bind_ok (Act.exec_modify _ _), hduring, ht₂,
        if_neg (by simp [hs.waitFails]), ← hsettle]
      rfl
    · refine hsettled.onward.isEnding (hheeded (fun hsignal => h₁.isEnding (ht hsignal)) ?_)
      exact hsignal

/-! ## What is asked of the dev server -/

/-- What was asked of the dev server from one scene to another: without a signal nothing but to wait,
and with one a single kill at most, behind a request to end and not before it is overdue. -/
structure Conduct (t u : Scene (Notebook σ)) (log : List Request) : Prop where
  requests : u.server.requests = t.server.requests ++ log
  silent : u.session.signal = none → ∀ q ∈ log, q = .wait (some waitSpan)
  once : log.count .kill ≤ 1
  kills : ∀ before, before ++ [.kill] <+: log → .terminate ∈ t.server.requests ++ before ∧
    IsOverdue u.outside.notes (t.server.requests ++ before)

/-- What a deadline says of the waits so far. -/
def Deadline.Fits (u : Scene (Notebook σ)) (log : List Request) : Deadline → Prop
  | .unset => .kill ∉ log ∧
    ∀ x ∈ u.outside.notes, ∀ left, x.gap = .waited left → x.signal = none
  | .due time => .kill ∉ log ∧ u.session.signal ≠ none ∧
    ∃ first, FirstLate u.outside.notes first ∧ time = first.server.clock + grace
  | .passed => True

/-- How far a session has come that waits for its dev server. -/
structure Underway (t u : Scene (Notebook σ)) (log : List Request) (d : Deadline) : Prop
    extends IsWaiting u, Conduct t u log where
  heeded : Heeded u
  fits : d.Fits u log

variable {log : List Request} {d : Deadline} {g : Gap} {time : Milliseconds}

/-- What ends with something does not reach into what does not have it. -/
theorem prefix_of_prefix_append {before : List Request} {q : Request} (hq : q ∉ asked)
    (h : before ++ [q] <+: log ++ asked) : before ++ [q] <+: log := by
  rcases List.prefix_or_prefix_of_prefix h (List.prefix_append log asked) with h' | h'
  · exact h'
  · rcases List.prefix_concat_iff.mp h' with rfl | ⟨more, rfl⟩
    · exact List.prefix_rfl
    · rw [List.append_assoc, List.prefix_append_right_inj] at h
      exact absurd (h.subset List.mem_concat_self) hq

theorem Conduct.follow (h : Conduct t u log) (hf : Onward u v asked) :
    Conduct t v (log ++ asked) where
  requests := by rw [hf.requests, h.requests, List.append_assoc]
  silent := fun hv =>
    have ⟨hu, hasked⟩ := hf.silent hv
    List.forall_mem_append.mpr ⟨h.silent hu, hasked⟩
  once := by
    rw [List.count_append, List.count_eq_zero.mpr hf.alive]
    exact h.once
  kills := fun before hbefore => by
    rw [hf.notes]
    exact h.kills before (prefix_of_prefix_append hf.alive hbefore)

theorem Conduct.withNote (h : Conduct t u log) (g : Gap) : Conduct t (noted g u) log :=
  ⟨h.requests, h.silent, h.once, fun before hbefore =>
    (h.kills before hbefore).imp_right fun hoverdue => hoverdue.append _⟩

namespace Underway

theorem follow (h : Underway t u log d) (hf : Onward u v asked) (hv : Heeded u → Heeded v) :
    Underway t v (log ++ asked) d := by
  refine ⟨hf.isWaiting h.toIsWaiting, h.toConduct.follow hf, hv h.heeded, ?_⟩
  have hfits := h.fits
  have halive : .kill ∉ log → .kill ∉ log ++ asked :=
    fun hlog hmem => (List.mem_append.mp hmem).elim hlog hf.alive
  cases d with
  | unset =>
    rw [Deadline.Fits, hf.notes]
    exact hfits.imp_left halive
  | due time =>
    rw [Deadline.Fits, hf.notes]
    exact ⟨halive hfits.1, hf.signal hfits.2.1, hfits.2.2⟩
  | passed => trivial

theorem withNote (h : Underway t u log d)
    (hg : d = .unset → ∀ left, g = .waited left → u.session.signal = none) :
    Underway t (noted g u) log d := by
  refine ⟨⟨h.phase, h.started⟩, h.toConduct.withNote g, h.heeded, ?_⟩
  have hfits := h.fits
  cases d with
  | unset =>
    refine ⟨hfits.1, fun x hx => ?_⟩
    rcases List.mem_append.mp hx with hx | hx
    · exact hfits.2 x hx
    · obtain rfl := List.mem_singleton.mp hx
      exact hg rfl
  | due time =>
    obtain ⟨hkill, hsignal, first, hfirst, htime⟩ := hfits
    exact ⟨hkill, hsignal, first, hfirst.append _, htime⟩
  | passed => trivial

/-- No deadline says nothing. -/
theorem passed (h : Underway t u log d) : Underway t u log .passed :=
  ⟨h.toIsWaiting, h.toConduct, h.heeded, trivial⟩

/-- A deadline is set behind the first wait in vain behind which a signal is found. -/
theorem due (h : Underway t u log .passed) (hkill : .kill ∉ log) (hsignal : u.session.signal ≠ none)
    {first : Note} (hfirst : FirstLate u.outside.notes first) :
    Underway t u log (.due (first.server.clock + grace)) :=
  ⟨h.toIsWaiting, h.toConduct, h.heeded, hkill, hsignal, first, hfirst, rfl⟩

theorem log_warning (h : Underway t u log d) (text : String) :
    Underway t { u with host := u.host.log .warning text } log d :=
  ⟨⟨h.phase, h.started⟩, ⟨h.requests, h.silent, h.once, h.kills⟩, h.heeded, by
    have hfits := h.fits
    cases d <;> exact hfits⟩

theorem killed (h : Underway t u log (.due time)) (hasked : .terminate ∈ u.server.requests)
    (hoverdue : IsOverdue u.outside.notes u.server.requests) :
    Underway t { u with server := { u.server.request .kill with killed := true } }
      (log ++ [.kill]) .passed := by
  obtain ⟨hkill, hsignal, -⟩ := h.fits
  refine ⟨⟨h.phase, h.started⟩, ⟨?_, fun hu => absurd hu hsignal, ?_, fun before hbefore => ?_⟩,
    fun _ => Or.inl (List.mem_append_left _ hasked), trivial⟩
  · show u.server.requests ++ [.kill] = _
    rw [h.requests, List.append_assoc]
  · rw [List.count_append, List.count_eq_zero.mpr hkill]
    decide
  · rcases List.prefix_concat_iff.mp hbefore with heq | hlog
    · rw [List.append_cancel_right heq, ← h.requests]
      exact ⟨hasked, hoverdue⟩
    · exact absurd (hlog.subset List.mem_concat_self) hkill

end Underway

/-! ## Supervision -/

/-- What is done behind a wait in vain once a signal is found. -/
def pressBetween (script : Script σ) (gap : Gap → Act σ Unit) (waits : Nat) (d : Deadline) :
    Act σ Int := do
  gap (.late waits)
  let clock := (← Act.server).clock
  match d with
  | .unset => superviseBetween script gap waits (.due (clock + grace))
  | .due time =>
    if time ≤ clock then
      Act.work (Work.warn "Dev server ignored termination, killing it")
      gap (.warned waits)
      kill
      gap (.killed waits)
      superviseBetween script gap waits .passed
    else superviseBetween script gap waits (.due time)
  | .passed => superviseBetween script gap waits .passed

/-- What is done behind a wait. -/
def afterWaitBetween (script : Script σ) (gap : Gap → Act σ Unit) (waits : Nat) (d : Deadline) :
    Waited → Act σ Int
  | .ended code => return code
  | .timedOut => do
    gap (.waited waits)
    if (← Act.session).signal.isNone then superviseBetween script gap waits d
    else pressBetween script gap waits d

theorem superviseBetween_succ (script : Script σ) (gap : Gap → Act σ Unit) (waits : Nat)
    (d : Deadline) : superviseBetween script gap (waits + 1) d = (do
      gap (.waiting waits)
      afterWaitBetween script gap waits d (← wait script (some waitSpan))) := by
  rw [superviseBetween]
  refine bind_congr fun _ => bind_congr fun w => ?_
  cases w <;> rfl

/-- How a supervision ends that has so many waits left: with the exit code of the dev server, or
when all of them were in vain. -/
def Answers (waits : Nat) (r : Result Int) (u : Scene (Notebook σ)) : Prop :=
  (∃ code, r = .ok code ∧ u.server.ended = some code) ∨
    r = .error (.fault .runtime) ∧ ∀ left < waits, ∃ x ∈ u.outside.notes, x.gap = .waited left

/-- What a supervision comes to from a scene on. -/
def Comes (t u : Scene (Notebook σ)) (waits : Nat) (x : Result Int × Scene (Notebook σ)) : Prop :=
  (∃ log, Conduct t x.2 log) ∧ u.outside.notes <+: x.2.outside.notes ∧ Answers waits x.1 x.2

/-- One more wait was in vain. -/
theorem Comes.of_waited {waits : Nat} {x : Result Int × Scene (Notebook σ)} (h : Comes t v waits x)
    (hnotes : u.outside.notes <+: v.outside.notes)
    (hwaited : ∃ x ∈ v.outside.notes, x.gap = .waited waits) : Comes t u (waits + 1) x := by
  refine ⟨h.1, hnotes.trans h.2.1, h.2.2.imp_right fun ⟨hr, hleft⟩ => ⟨hr, fun left hlt => ?_⟩⟩
  rcases Nat.lt_succ_iff_lt_or_eq.mp hlt with hlt | rfl
  · exact hleft left hlt
  · obtain ⟨note, hmem, hgap⟩ := hwaited
    exact ⟨note, h.2.1.subset hmem, hgap⟩

section Supervision

variable (hs : Awaitable script) (hgap : ∀ g, Happens script (gap g))
include hs hgap

/-- What goes on in a gap changes nothing of how far the session has come, until it is noted. -/
theorem Underway.between (h : Underway t u log d) (g : Gap) :
    ∃ v asked, (noting gap g).exec u = (.ok (), noted g v) ∧ Onward u v asked ∧
      Underway t v (log ++ asked) d := by
  obtain ⟨v, asked, hv, honward, hheeded⟩ := (hgap g).leads hs h.toIsWaiting
  refine ⟨v, asked, ?_, honward, h.follow honward hheeded⟩
  rw [noting, Act.exec_bind_ok hv, Act.exec_modify]

/-- A dev server that did not end in time is killed. -/
theorem Underway.overdue {n : Nat} {before : List Note} {first waited late : Note}
    (h : Underway t u log (.due time)) (hasked : .terminate ∈ u.server.requests)
    (hnotes : u.outside.notes = before ++ [waited, late]) (hfirst : FirstLate before first)
    (hwaited : waited.gap = .waited n) (hlate : late.gap = .late n)
    (hclock : first.server.clock + grace ≤ late.server.clock) (rest : Act (Notebook σ) Int) :
    ∃ v log', (do
        Act.work (Work.warn "Dev server ignored termination, killing it")
        noting gap (.warned n)
        kill
        noting gap (.killed n)
        rest : Act (Notebook σ) Int).exec u = rest.exec v ∧
      Underway t v log' .passed ∧ u.outside.notes <+: v.outside.notes := by
  obtain ⟨u₁, asked₁, hu₁, hf₁, h₁⟩ := (h.log_warning _).between hs hgap (.warned n)
  have hnotes₁ : (noted (.warned n) u₁).outside.notes =
      u.outside.notes ++ [⟨.warned n, u₁.session.signal, u₁.server⟩] :=
    congrArg (· ++ [_]) hf₁.notes
  have hoverdue : IsOverdue (noted (.warned n) u₁).outside.notes u₁.server.requests := by
    refine ⟨before, first, waited, late, ⟨.warned n, u₁.session.signal, u₁.server⟩, [], n, ?_,
      hfirst, hwaited, hlate, rfl, rfl, hclock⟩
    rw [hnotes₁, hnotes, List.append_assoc]
    rfl
  have hkilled := (h₁.withNote nofun).killed (hf₁.mem_requests hasked) hoverdue
  obtain ⟨u₂, asked₂, hu₂, hf₂, h₂⟩ := hkilled.between hs hgap (.killed n)
  refine ⟨noted (.killed n) u₂, _, ?_, h₂.withNote nofun, ?_⟩
  · rw [Act.exec_bind_ok (Act.exec_work_of (Work.exec_warn _ _)), Act.exec_bind_ok hu₁,
      Act.exec_bind_ok (exec_kill _), Act.exec_bind_ok hu₂]
  · show _ <+: u₂.outside.notes ++ _
    rw [hf₂.notes]
    show _ <+: (noted (.warned n) u₁).outside.notes ++ _
    rw [hnotes₁, List.append_assoc]
    exact List.prefix_append _ _

/-- Behind a wait in vain the session goes on to the next wait, once a signal is found. -/
theorem Underway.presses {n : Nat} (h : Underway t u log d) (hsignal : u.session.signal ≠ none)
    (hasked : ∀ time, d = .due time → .terminate ∈ u.server.requests) :
    ∃ v log' d', (pressBetween script (noting gap) n d).exec (noted (.waited n) u) =
        (superviseBetween script (noting gap) n d').exec v ∧ Underway t v log' d' ∧
      (noted (.waited n) u).outside.notes <+: v.outside.notes := by
  obtain ⟨u', asked, hu', honward, hheeded⟩ := (hgap (.late n)).leads hs
    (t := noted (.waited n) u) ⟨h.phase, h.started⟩
  have hnotes : (noted (.late n) u').outside.notes = u.outside.notes ++
      [⟨.waited n, u.session.signal, u.server⟩, ⟨.late n, u'.session.signal, u'.server⟩] := by
    show u'.outside.notes ++ _ = _
    rw [honward.notes, noted, List.append_assoc]
    rfl
  have hlater : (noted (.waited n) u).outside.notes <+: (noted (.late n) u').outside.notes := by
    rw [← honward.notes]
    exact List.prefix_append _ _
  rw [pressBetween, noting, bind_assoc, Act.exec_bind_ok hu',
    Act.exec_bind_ok (Act.exec_modify _ _), Act.exec_bind_ok (Act.exec_server _)]
  cases d with
  | unset =>
    obtain ⟨hkill, hsilent⟩ := h.fits
    have hfirst : FirstLate (noted (.late n) u').outside.notes
        ⟨.late n, u'.session.signal, u'.server⟩ :=
      ⟨u.outside.notes, _, [], n, hnotes, rfl, hsignal, rfl, hsilent⟩
    have hpassed := (h.passed.withNote (g := .waited n) nofun).follow honward hheeded
    exact ⟨_, _, _, rfl, (hpassed.withNote nofun).due
      (fun hmem => (List.mem_append.mp hmem).elim hkill honward.alive) (honward.signal hsignal)
      hfirst, hlater⟩
  | due time =>
    have hlate := ((h.withNote (g := .waited n) nofun).follow honward hheeded).withNote
      (g := .late n) nofun
    dsimp only
    split
    · next hclock =>
      obtain ⟨-, -, first, hfirst, rfl⟩ := h.fits
      obtain ⟨v, log', hv, hkilled, hlast⟩ := hlate.overdue hs hgap
        (honward.mem_requests (hasked _ rfl)) hnotes hfirst rfl rfl hclock
        (superviseBetween script (noting gap) n .passed)
      exact ⟨v, log', _, hv, hkilled, hlater.trans hlast⟩
    · exact ⟨_, _, _, rfl, hlate, hlater⟩
  | passed =>
    have hlate := (h.withNote (g := .waited n) nofun).follow honward hheeded
    exact ⟨_, _, _, rfl, hlate.withNote nofun, hlater⟩

/-- Behind a wait in vain the session goes on to the next wait. -/
theorem Underway.resumes {n : Nat} (h : Underway t u log d) (hended : u.server.ended = none) :
    ∃ v log' d', (afterWaitBetween script (noting gap) n d .timedOut).exec u =
        (superviseBetween script (noting gap) n d').exec v ∧ Underway t v log' d' ∧
      ∃ note : Note, note.gap = .waited n ∧ u.outside.notes ++ [note] <+: v.outside.notes := by
  obtain ⟨u', asked, hu', honward, h'⟩ := h.between hs hgap (.waited n)
  rw [afterWaitBetween, Act.exec_bind_ok hu', Act.exec_bind_ok (Act.exec_session _),
    ← honward.notes]
  by_cases hsignal : u'.session.signal = none
  · rw [if_pos (by simp [noted, hsignal])]
    exact ⟨_, _, d, rfl, h'.withNote fun _ _ _ => hsignal, _, rfl, List.prefix_rfl⟩
  · rw [if_neg (by simp [noted, hsignal])]
    -- If a deadline is set, there was a signal before this wait, and the server did not end.
    have hasked : ∀ time, d = .due time → .terminate ∈ u'.server.requests := by
      rintro time rfl
      have hending := h.heeded h.fits.2.1
      exact honward.mem_requests (hending.resolve_right fun hne => hne hended)
    obtain ⟨v, log', d', hv, hunderway, hlater⟩ := h'.presses hs hgap hsignal hasked
    exact ⟨v, log', d', hv, hunderway, _, rfl, hlater⟩

/-- The notes and the requests say at each wait how far the session has come. -/
theorem Underway.comes (n : Nat) (h : Underway t u log d) :
    Comes t u n ((superviseBetween script (noting gap) n d).exec u) := by
  induction n generalizing u log d with
  | zero =>
    exact ⟨⟨log, h.toConduct⟩, List.prefix_rfl, Or.inr ⟨rfl, fun _ hlt => absurd hlt (by omega)⟩⟩
  | succ n ih =>
    obtain ⟨u₁, asked₁, hu₁, hf₁, h₁⟩ := h.between hs hgap (.waiting n)
    obtain ⟨w, u₂, asked₂, hu₂, hf₂, hheeded₂, hended⟩ := wait_leads hs (t := noted (.waiting n) u₁)
      ⟨h₁.phase, h₁.started⟩
    have h₂ := (h₁.withNote (g := .waiting n) nofun).follow hf₂ hheeded₂
    have hnotes : u.outside.notes <+: u₂.outside.notes := by
      rw [hf₂.notes, ← hf₁.notes]
      exact List.prefix_append _ _
    rw [superviseBetween_succ, Act.exec_bind_ok hu₁, Act.exec_bind_ok hu₂]
    cases w with
    | ended code => exact ⟨⟨_, h₂.toConduct⟩, hnotes, Or.inl ⟨code, rfl, hended⟩⟩
    | timedOut =>
      obtain ⟨v, log', d', hv, hunderway, note, hgap, hlater⟩ := h₂.resumes hs hgap hended
      rw [hv]
      exact (ih hunderway).of_waited (hnotes.trans ((List.prefix_append _ _).trans hlater))
        ⟨note, hlater.subset List.mem_concat_self, hgap⟩

/-- A session answers the exit code of its dev server, unless as many waits as it has were in vain.
Without a signal it does nothing but wait. It kills the server once at most, behind a wait in vain,
when the server was asked to end and the time for that has run out since the first wait in vain
behind a signal. A wait is behind a signal if that has arrived when the session looks for one. -/
theorem supervise_protocol (ht : IsWaiting t) (hheeded : Heeded t) (hnotes : t.outside.notes = [])
    (n : Nat) : ∃ r u log, (superviseBetween script (noting gap) n .unset).exec t = (r, u) ∧
      Conduct t u log ∧ Answers n r u := by
  have hconduct : Conduct t t [] := by
    refine ⟨(List.append_nil _).symm, fun _ => List.forall_mem_nil _, Nat.zero_le 1,
      fun before hbefore => ?_⟩
    exact absurd (hbefore.subset List.mem_concat_self) List.not_mem_nil
  have hfits : Deadline.Fits t [] .unset := by
    rw [Deadline.Fits, hnotes]
    exact ⟨List.not_mem_nil, List.forall_mem_nil _⟩
  obtain ⟨⟨log, hlog⟩, -, hanswers⟩ :=
    Underway.comes hs hgap n ⟨ht, hconduct, hheeded, hfits⟩
  exact ⟨_, _, log, rfl, hlog, hanswers⟩

end Supervision

/-! ### A dev server that does not end by itself -/

/-- A dev server that outlasts one wait and does not end when it is asked to. -/
def stubbornScript : Script (Notebook Unit) where
  exitCode := 0
  timeouts := 1
  ignoresTermination := true
  startError := none
  signalAtStart := none
  waitFails := false
  duringStart := id
  duringWait := fun _ => id
  onTermination := id
  duringRestoration := id

/-- A signal arrives behind the first of thirteen waits. -/
def stubbornGap : Gap → Act (Notebook Unit) Unit
  | .waited 12 => receiveBetween stubbornScript (fun _ => pure ()) 15 >>= fun _ => pure ()
  | _ => pure ()

def stubbornScene : Scene (Notebook Unit) where
  host := {
    store := ⟨[], 0⟩, history := [], workingDirectory := ⟨.absolute, []⟩, logs := [], issued := 0
    processId := 7, running := [], now := "2024-05-01T00:00:00" }
  session := {
    configFile := ⟨.absolute, ["p.yml"]⟩
    settings := ⟨⟨.absolute, ["state"]⟩, ⟨.absolute, []⟩, ["start"]⟩
    entryDirectory := none, phase := .active, entry := none, backup := none, marker := none
    started := true, watcher := none, generated := true, signal := none }
  server := .fresh 1
  outside := ⟨[], ()⟩

theorem stubborn_awaitable : Awaitable stubbornScript where
  onTermination := fun _ => ⟨rfl, rfl, rfl, rfl, Or.inl rfl, rfl⟩
  duringWait := fun _ => ⟨pure (), .none, fun _ => rfl⟩
  settles := fun _ _ _ hnone hcode => by cases hnone.symm.trans hcode
  waitFails := rfl

theorem stubborn_happens (g : Gap) : Happens stubbornScript (stubbornGap g) := by
  unfold stubbornGap
  split
  · exact .signal 15 (fun _ => .none) .none
  · exact .none

theorem stubborn_killed : .kill ∈ ((superviseBetween stubbornScript (noting stubbornGap) 13
    .unset).exec stubbornScene).2.server.requests := by
  decide +kernel

theorem supervise_protocol_stubborn :
    .kill ∈ ((superviseBetween stubbornScript (noting stubbornGap) 13
      .unset).exec stubbornScene).2.server.requests ∧
    ∃ r u log, (superviseBetween stubbornScript (noting stubbornGap) 13 .unset).exec
      stubbornScene = (r, u) ∧ Conduct stubbornScene u log ∧ Answers 13 r u :=
  ⟨stubborn_killed, supervise_protocol stubborn_awaitable stubborn_happens ⟨rfl, rfl⟩
    (fun h => absurd rfl h) rfl 13⟩

end Session
end Vitrine
