import EditorServices.Proofs.Session.Asking
import EditorServices.Proofs.Session.Dealing
import Mathlib.Data.List.Induction

/-!
# `Proofs.Session.Correlation` — a request gets the first response to it, once

The headline `responses_correlate` is about every history of turns: calls, messages of the server in any
order, results and failures of operations, tasks that give up, the end of the stream.

A task's wait carries no trace of where its reply came from, so the argument follows the history itself.
`Traced` says of each wait when its request was registered and, if it has a response, that this response
is the first message after that which answers the request; every turn keeps it (`traced_snoc`). That a
request has its reply once only is a matter of its id: an id that was used and that nobody waits under
is `Retired` for good.

## Contents
- **Registration.** `Registers`, and `registers_once`.
- **The first response.** `FirstAnswer`, `Traced`.
- **Once.** `Retired`.
- **Correlation.** `responses_correlate`.
-/

namespace EditorServices.Session

/-! ## Registration -/

/-- A turn in which a task's request gets its place among the pending ones. -/
def Registers (s : Session) (u : Turn) (t id : Nat) : Prop :=
  (id, t) ∈ (s.step u).session.pending ∧ ∀ p ∈ s.pending, p.1 ≠ id

/-- The id of a registered request is the next one. -/
theorem Registers.eq_last {s : Session} {u : Turn} {t id : Nat} (h : Registers s u t id) :
    id = s.lastRequest + 1 ∧ (s.step u).session.lastRequest = s.lastRequest + 1 := by
  obtain ⟨hmem, hnew⟩ := h
  have hold : (id, t) ∉ s.pending := fun hm => hnew _ hm rfl
  cases dealing_step s u with
  | still pending => exact absurd (pending ▸ hmem) hold
  | registered v purpose _ _ pending last =>
    rw [pending] at hmem
    rcases List.mem_append.mp hmem with hm | hm
    · exact absurd hm hold
    · cases List.mem_singleton.mp hm
      exact ⟨rfl, last⟩
  | resolved m x v _ _ _ pending =>
    rw [pending] at hmem
    exact absurd (List.mem_filter.mp hmem).1 hold
  | left v w _ pending =>
    rw [pending] at hmem
    exact absurd (List.mem_filter.mp hmem).1 hold
  | written v w _ _ pending => exact absurd (pending ▸ hmem) hold
  | failed reason _ pending =>
    rw [pending] at hmem
    cases hmem

/-- Ids are never taken back. -/
theorem lastRequest_le_step (s : Session) (u : Turn) :
    s.lastRequest ≤ (s.step u).session.lastRequest := by
  cases dealing_step s u with
  | registered _ _ _ _ _ last => rw [last]; exact Nat.le_succ _
  | still _ last | resolved _ _ _ _ _ _ _ last | left _ _ _ _ last | written _ _ _ _ _ last
  | failed _ _ _ last => exact Nat.le_of_eq last.symm

theorem lastRequest_le_after (s : Session) (h : List Turn) :
    s.lastRequest ≤ (s.after h).lastRequest :=
  after_preserves (P := fun x => s.lastRequest ≤ x.lastRequest)
    (fun x u hx => Nat.le_trans hx (lastRequest_le_step x u)) (Nat.le_refl _) h

/-- After a request was registered, no other is registered under its id. -/
theorem registers_once {s : Session} {u v : Turn} {t t' id : Nat} {g : List Turn}
    (h : Registers s u t id) : ¬ Registers ((s.step u).session.after g) v t' id := by
  intro h'
  have hle := lastRequest_le_after (s.step u).session g
  have hu := h.eq_last
  have hv := h'.eq_last
  omega

/-! ## The first response -/

/-- In a history, a task's request was registered, and a message is the first one after that which
answers it. -/
def FirstAnswer (p : Profile) (h : List Turn) (t id : Nat) (m : Json) : Prop :=
  ∃ a u b c, h = a ++ u :: (b ++ .receive m :: c) ∧ Registers ((new p).after a) u t id ∧
    Answers m id ∧ ∀ x, .receive x ∈ b → ¬ Answers x id

/-- In a history, a request is registered at one place. -/
theorem registration_unique {p : Profile} {a a' b b' : List Turn} {u u' : Turn} {t t' id : Nat}
    (heq : a ++ u :: b = a' ++ u' :: b') (h : Registers ((new p).after a) u t id)
    (h' : Registers ((new p).after a') u' t' id) : a = a' ∧ u :: b = u' :: b' := by
  rcases List.append_eq_append_iff.mp heq with ⟨g, ha, hb⟩ | ⟨g, ha, hb⟩
  · cases g with
    | nil => exact ⟨by rw [ha, List.append_nil], hb⟩
    | cons v g =>
      obtain ⟨rfl, -⟩ := List.cons.inj hb
      rw [ha, after_append, after_cons] at h'
      exact absurd h' (registers_once h)
  · cases g with
    | nil => exact ⟨by rw [ha, List.append_nil], hb.symm⟩
    | cons v g =>
      obtain ⟨rfl, -⟩ := List.cons.inj hb
      rw [ha, after_append, after_cons] at h
      exact absurd h (registers_once h')

/-- There is one first answer. -/
theorem FirstAnswer.unique {p : Profile} {h : List Turn} {t id : Nat} {m m' : Json}
    (hm : FirstAnswer p h t id m) (hm' : FirstAnswer p h t id m') : m = m' := by
  obtain ⟨a, u, b, c, rfl, hreg, hans, hnone⟩ := hm
  obtain ⟨a', u', b', c', heq, hreg', hans', hnone'⟩ := hm'
  obtain ⟨-, hb⟩ := registration_unique heq hreg hreg'
  rcases List.append_eq_append_iff.mp (List.cons.inj hb).2 with ⟨g, hg, hr⟩ | ⟨g, hg, hr⟩
  · cases g with
    | nil => exact Turn.receive.inj (List.cons.inj hr).1
    | cons v g =>
      obtain ⟨rfl, -⟩ := List.cons.inj hr
      exact absurd hans (hnone' m (by rw [hg]; simp))
  · cases g with
    | nil => exact (Turn.receive.inj (List.cons.inj hr).1).symm
    | cons v g =>
      obtain ⟨rfl, -⟩ := List.cons.inj hr
      exact absurd hans' (hnone m' (by rw [hg]; simp))

/-- Where the request of a wait comes from: it was registered, and it has no reply while no message
answered it. -/
structure Origin (p : Profile) (h : List Turn) (t : Nat) (w : Wait) : Prop where
  registered : ∃ a u b, h = a ++ u :: b ∧ Registers ((new p).after a) u t w.id ∧
    (w.reply = none → ∀ x, .receive x ∈ b → ¬ Answers x w.id)
  answered : ∀ m, w.reply = some (.ok m) → FirstAnswer p h t w.id m

/-- Every wait has its origin in the history. -/
def Traced (p : Profile) (h : List Turn) : Prop :=
  ∀ t w, ((new p).after h).waitOf t = some w → Origin p h t w

/-- What was the first answer stays that. -/
theorem FirstAnswer.snoc {p : Profile} {h : List Turn} {t id : Nat} {m : Json}
    (hf : FirstAnswer p h t id m) (u : Turn) : FirstAnswer p (h ++ [u]) t id m := by
  obtain ⟨a, v, b, c, rfl, hreg, hans, hnone⟩ := hf
  exact ⟨a, v, b, c ++ [u], by simp, hreg, hans, hnone⟩

/-- A wait stays traced by a turn that is no answer to it. -/
theorem Origin.snoc {p : Profile} {h : List Turn} {t : Nat} {w : Wait} (hw : Origin p h t w) {u : Turn}
    (hu : w.reply = none → ∀ m, u = .receive m → ¬ Answers m w.id) : Origin p (h ++ [u]) t w := by
  obtain ⟨a, v, b, rfl, hreg, hnone⟩ := hw.registered
  refine ⟨⟨a, v, b ++ [u], by simp, hreg, fun hr x hx => ?_⟩, fun m hm => (hw.answered m hm).snoc u⟩
  rcases List.mem_append.mp hx with hx | hx
  · exact hnone hr x hx
  · exact hu hr x (List.mem_singleton.mp hx).symm

/-- Only the id and the reply of a wait matter. -/
theorem Origin.congr {p : Profile} {h : List Turn} {t : Nat} {w x : Wait} (hw : Origin p h t w)
    (hid : x.id = w.id) (hreply : x.reply = w.reply) : Origin p h t x := by
  obtain ⟨hreg, hans⟩ := hw
  rw [← hid, ← hreply] at hreg
  exact ⟨hreg, fun m hm => hid ▸ hans m (hreply ▸ hm)⟩

/-- A wait without a reply that gets one. -/
theorem Origin.reply {p : Profile} {h : List Turn} {t : Nat} {w : Wait} (hw : Origin p h t w) {u : Turn}
    {r : Reply} (hr : w.reply = none) (hu : ∀ m, r = .ok m → u = .receive m ∧ Answers m w.id) :
    Origin p (h ++ [u]) t (w.answered r) := by
  have hid := w.id_answered r
  have hreply : (w.answered r).reply = some r := by rw [w.reply_answered, hr]; rfl
  obtain ⟨a, v, b, rfl, hreg, hnone⟩ := hw.registered
  refine ⟨⟨a, v, b ++ [u], by simp, hid ▸ hreg, fun hr' => by rw [hreply] at hr'; cases hr'⟩, ?_⟩
  intro m hm
  rw [hreply] at hm
  obtain rfl : r = .ok m := Option.some.inj hm
  obtain ⟨rfl, hans⟩ := hu m rfl
  rw [hid]
  exact ⟨a, v, b, [], by simp, hreg, hans, hnone hr⟩

theorem traced_nil (p : Profile) : Traced p [] := by
  intro t w hw
  cases hw

/-- **Every turn keeps the trace of every wait.** -/
theorem traced_snoc {p : Profile} {h : List Turn} (ht : Traced p h) (u : Turn) : Traced p (h ++ [u]) := by
  have hcons := consistent_after p h
  intro t w hw
  rw [after_append] at hw
  change (((new p).after h).step u).session.waitOf t = some w at hw
  -- a turn that receives no message, as most are
  have hquiet (inside : ∀ m, u ≠ .receive m) (x : Wait) :
      x.reply = none → ∀ m, u = .receive m → ¬ Answers m x.id :=
    fun _ m hm => absurd hm (inside m)
  cases hd : dealing_step ((new p).after h) u with
  | still pending last waits unanswered =>
    rw [waits t] at hw
    refine (ht t w hw).snoc fun hr m hm => ?_
    exact unanswered m hm _ (hcons.mem_pending hw hr)
  | registered v purpose isOpen free pending last waits inside =>
    rw [waits t] at hw
    split at hw
    · next htv =>
      cases hw
      subst htv
      refine ⟨⟨h, u, [], rfl, ⟨?_, fun q hq => ?_⟩, fun _ x hx => by cases hx⟩, fun m hm => by cases hm⟩
      · rw [pending]
        exact List.mem_append_right _ (List.mem_singleton_self _)
      · have := hcons.le_last hq
        dsimp only
        omega
    · exact (ht t w hw).snoc (hquiet inside w)
  | resolved m id v message listed answers pending last waits =>
    obtain ⟨x, hx, hxid, hxr⟩ := hcons.waiting listed
    rw [waits t] at hw
    split at hw
    · next htv =>
      subst htv
      rw [hx] at hw
      cases hw
      refine (ht t x hx).reply hxr fun m' hm' => ?_
      cases hm'
      exact ⟨message, hxid ▸ answers⟩
    · next htv =>
      -- the message cannot answer two requests
      refine (ht t w hw).snoc fun _ m' hm' hans => htv ?_
      obtain rfl : m' = m := by rw [message] at hm'; cases hm'; rfl
      obtain ⟨ms, rfl, -, hk⟩ := hans
      obtain ⟨ms', hms, -, hk'⟩ := answers
      cases hms
      rw [sameKey_int_iff] at hk hk'
      have hids : w.id = x.id := by
        rw [hk] at hk'
        have := Option.some.inj hk'
        omega
      exact hcons.single t v w x hw hx hids
  | left v x wait pending last waits inside =>
    rw [waits t] at hw
    split at hw
    · cases hw
    · exact (ht t w hw).snoc (hquiet inside w)
  | written v x wait waiting pending last waits inside =>
    rw [waits t] at hw
    split at hw
    · next htv =>
      cases hw
      subst htv
      exact ((ht t x wait).snoc (hquiet inside x)).congr rfl rfl
    · exact (ht t w hw).snoc (hquiet inside w)
  | failed reason closed pending last waits inside =>
    rw [waits t] at hw
    split at hw
    · obtain ⟨x, hx, rfl⟩ := Option.map_eq_some_iff.mp hw
      cases hxr : x.reply with
      | none => exact (ht t x hx).reply hxr fun m hm => by cases hm
      | some r =>
        rw [Wait.answered_of_reply hxr]
        exact (ht t x hx).snoc (hquiet inside x)
    · exact (ht t w hw).snoc (hquiet inside w)

theorem traced (p : Profile) (h : List Turn) : Traced p h := by
  induction h using List.reverseRecOn with
  | nil => exact traced_nil p
  | append_singleton h u ih => exact traced_snoc ih u

/-- **A request that was answered has its first answer as its reply**, unless it failed before. -/
theorem reply_of_firstAnswer {p : Profile} {h : List Turn} {t : Nat} {w : Wait}
    (hw : ((new p).after h).waitOf t = some w) {m : Json} (hm : FirstAnswer p h t w.id m) :
    w.reply = some (.ok m) ∨ ∃ f, w.reply = some (.error f) := by
  have horigin := traced p h t w hw
  cases hr : w.reply with
  | none =>
    -- its first answer came after it was registered, so it has a reply
    obtain ⟨a, u, b, heq, hreg, hnone⟩ := horigin.registered
    obtain ⟨a', u', b', c', heq', hreg', hans, -⟩ := hm
    obtain ⟨-, hb⟩ := registration_unique (heq.symm.trans heq') hreg hreg'
    refine absurd hans (hnone hr m ?_)
    rw [(List.cons.inj hb).2]
    simp
  | some r =>
    cases r with
    | error f => exact .inr ⟨f, rfl⟩
    | ok m' =>
      obtain rfl := (horigin.answered m' hr).unique hm
      exact .inl rfl

/-! ## Once -/

/-- An id was used and nobody waits under it. -/
def Retired (s : Session) (id : Nat) : Prop :=
  id ≤ s.lastRequest ∧ ∀ t w, s.waitOf t = some w → w.id ≠ id

theorem Retired.step {s : Session} {id : Nat} (h : Retired s id) (u : Turn) :
    Retired (s.step u).session id := by
  refine ⟨Nat.le_trans h.1 (lastRequest_le_step s u), fun t w hw => ?_⟩
  cases dealing_step s u with
  | still _ _ waits _ => exact h.2 t w (waits t ▸ hw)
  | registered v _ _ _ _ _ waits _ =>
    rw [waits t] at hw
    split at hw
    · cases hw
      have := h.1
      dsimp only
      omega
    · exact h.2 t w hw
  | resolved m _ v _ _ _ _ _ waits =>
    rw [waits t] at hw
    split at hw
    · obtain ⟨x, hx, rfl⟩ := Option.map_eq_some_iff.mp hw
      rw [x.id_answered]
      exact h.2 v x hx
    · exact h.2 t w hw
  | left v x _ _ _ waits _ =>
    rw [waits t] at hw
    split at hw
    · cases hw
    · exact h.2 t w hw
  | written v x wait _ _ _ waits _ =>
    rw [waits t] at hw
    split at hw
    · cases hw
      exact h.2 v x wait
    · exact h.2 t w hw
  | failed reason _ _ _ waits _ =>
    rw [waits t] at hw
    split at hw
    · obtain ⟨x, hx, rfl⟩ := Option.map_eq_some_iff.mp hw
      rw [x.id_answered]
      exact h.2 t x hx
    · exact h.2 t w hw

theorem Retired.after {s : Session} {id : Nat} (h : Retired s id) (g : List Turn) :
    Retired (s.after g) id :=
  after_preserves (P := fun x => Retired x id) (fun _ u hx => hx.step u) h g

/-- The wait of a request that has its reply. -/
theorem Concludes.waitOf {s : Session} {u : Turn} {t id : Nat} {r : Reply} (h : Concludes s u t id r) :
    ∃ w, s.waitOf t = some w ∧ w.id = id ∧ w.reply = some r := by
  cases h with
  | replied waits => exact ⟨_, waitOf_of_progressOf waits, rfl, rfl⟩
  | found waits => exact ⟨_, waitOf_of_progressOf waits, rfl, rfl⟩

theorem Retired.not_concludes {s : Session} {id : Nat} (h : Retired s id) {u : Turn} {t : Nat}
    {r : Reply} : ¬ Concludes s u t id r := by
  intro hc
  obtain ⟨w, hw, hid, -⟩ := hc.waitOf
  exact h.2 t w hw hid

/-- The session after a request had its reply: its task does not wait any longer, and the others wait
as before. -/
theorem Concludes.waitOf_step {s : Session} {u : Turn} {t id : Nat} {r : Reply}
    (h : Concludes s u t id r) (v : Nat) :
    (s.step u).session.waitOf v = if v = t then none else s.waitOf v := by
  have hconclude : ∀ {purpose written}, s.progressOf t = some (.requesting purpose id written (some r)) →
      (s.conclude t purpose id r).session.waitOf v = if v = t then none else s.waitOf v := by
    intro purpose written _
    obtain ⟨p, hp, hw⟩ := session_conclude s t purpose id r
    rw [hp, waitOf_moveTask_leave hw]
    rfl
  cases h with
  | @replied _ _ purpose _ waits =>
    obtain ⟨k, hk, hkp⟩ := Option.map_eq_some_iff.mp waits
    obtain ⟨job, progress⟩ := k
    cases hkp
    have hstep : (s.step (.resume t .replied)).session = (s.conclude t purpose id r).session := by
      show (s.resume t .replied).session = _
      rw [resume, hk]
    rw [hstep, hconclude waits]
  | @found _ _ purpose _ text waits =>
    obtain ⟨k, hk, hkp⟩ := Option.map_eq_some_iff.mp waits
    obtain ⟨job, progress⟩ := k
    cases hkp
    have hstep : (s.step (.resume t (.returned (.ok text)))).session
        = (s.conclude t purpose id r).session := by
      show (s.resume t (.returned (.ok text))).session = _
      rw [resume, hk]
      rfl
    rw [hstep, hconclude waits]

/-- **A request that has its reply is over.** -/
theorem Concludes.retired {s : Session} (hcons : Consistent s) {u : Turn} {t id : Nat} {r : Reply}
    (h : Concludes s u t id r) : Retired (s.step u).session id := by
  obtain ⟨w, hw, rfl, -⟩ := h.waitOf
  refine ⟨Nat.le_trans (hcons.bounded t w hw) (lastRequest_le_step s u), fun v x hx hid => ?_⟩
  rw [h.waitOf_step v] at hx
  split at hx
  · cases hx
  · next hv => exact hv (hcons.single v t x w hx hw hid)

/-! ## Correlation -/

/-- A message resolves no two requests: it takes at most one from the table and gives at most one task
its reply. -/
def ResolvesAtMostOne (s : Session) (m : Json) : Prop :=
  (∀ x ∈ s.pending, ∀ y ∈ s.pending, x ∉ (s.receive m).session.pending →
    y ∉ (s.receive m).session.pending → x = y) ∧
  ∀ t v, (s.receive m).session.waitOf t ≠ s.waitOf t → (s.receive m).session.waitOf v ≠ s.waitOf v →
    t = v

/-- A message leaves the table and every task as they are. -/
def PassesOver (s : Session) (m : Json) : Prop :=
  (s.receive m).session.pending = s.pending ∧
  ∀ (t : Nat) (k : Task), s.tasks[t]? = some k → (s.receive m).session.tasks[t]? = some k

/-- A message has a method, whatever it is. -/
def HasMethod (m : Json) : Prop := ∃ ms method, m = .obj ms ∧ Named.get? ms "method" = some method

theorem resolvesAtMostOne {s : Session} (hs : Consistent s) (m : Json) : ResolvesAtMostOne s m := by
  cases dealing_receive s m with
  | still pending _ waits _ =>
    exact ⟨fun x hx _ _ hx' _ => absurd (pending ▸ hx) hx', fun t _ ht _ => absurd (waits t) ht⟩
  | resolved _ id v _ listed _ pending _ waits =>
    refine ⟨fun x hx y hy hx' hy' => ?_, fun t w ht hw => ?_⟩
    · -- what is taken has the id, and ids are listed once
      have hid : ∀ {z}, z ∈ s.pending → z ∉ (s.receive m).session.pending → z = (id, v) := by
        intro z hz hz'
        have hzid : z.1 = id := by
          refine Classical.byContradiction fun hne => hz' ?_
          rw [pending]
          exact List.mem_filter.mpr ⟨hz, by simpa using hne⟩
        obtain ⟨w, hw, hwid, -⟩ := hs.waiting (show (z.1, z.2) ∈ s.pending from hz)
        obtain ⟨x, hx, hxid, -⟩ := hs.waiting listed
        have htask := hs.single z.2 v w x hw hx (by rw [hwid, hxid, hzid])
        exact Prod.ext hzid htask
      rw [hid hx hx', hid hy hy']
    · have hv : ∀ {z}, (s.receive m).session.waitOf z ≠ s.waitOf z → z = v := by
        intro z hz
        refine Classical.byContradiction fun hne => hz ?_
        rw [waits z, if_neg hne]
      rw [hv ht, hv hw]
  | registered _ _ _ _ _ _ _ inside | left _ _ _ _ _ _ inside | written _ _ _ _ _ _ _ inside
  | failed _ _ _ _ _ inside => exact absurd rfl (inside m)

/-- What is the server's own, or answers nothing that is pending, is passed over. -/
theorem passesOver {s : Session} {m : Json} (h : HasMethod m ∨ ∀ p ∈ s.pending, ¬ Answers m p.1) :
    PassesOver s m := by
  unfold PassesOver receive
  split
  · next ms =>
    split
    · next method hm =>
      have hg := grown_receiveMethod s ms method
      exact ⟨hg.pending, fun t k hk => hg.get hk⟩
    · next hm =>
      have hnone : ∀ p ∈ s.pending, ¬ Answers (.obj ms) p.1 := by
        rcases h with ⟨ms', method, heq, hmethod⟩ | h
        · cases heq
          rw [hm] at hmethod
          cases hmethod
        · exact h
      unfold receiveResponse
      dsimp only
      split
      · split
        · next id t hfound =>
          obtain ⟨hmem, hkey⟩ := pendingFor?_eq_some hfound
          exact absurd ⟨ms, rfl, hm, hkey⟩ (hnone _ hmem)
        · exact ⟨rfl, fun _ _ hk => hk⟩
      · exact ⟨rfl, fun _ _ hk => hk⟩
  · exact ⟨rfl, fun _ _ hk => hk⟩

/-- A question whose request has a response ends with what that response means. -/
theorem Concludes.completed {s : Session} {u : Turn} {t id : Nat} {m : Json}
    (h : Concludes s u t id (.ok m)) (ho : Orderly s) {q : Query} {line character : Json}
    (job : s.jobOf t = some (.call (.ask q line character))) :
    .completed t (q.answer m) ∈ (s.step u).effects := by
  have hpurpose : ∀ {purpose written}, s.progressOf t
      = some (.requesting purpose id written (some (.ok m))) → purpose = .ask q := by
    intro purpose written hp
    have hisOf := ho t _ _ job hp
    cases purpose with
    | handshake => cases hisOf
    | ask q' =>
      obtain ⟨_, _, heq⟩ := hisOf
      cases heq
      rfl
  cases h with
  | replied waits =>
    obtain rfl := hpurpose waits
    show _ ∈ (s.resume t .replied).effects
    rw [resume, task_of_views job waits]
    exact (completed_conclude_question job id (.ok m) _).mpr rfl
  | found waits =>
    obtain rfl := hpurpose waits
    show _ ∈ (s.resume t (.returned (.ok _))).effects
    rw [resume, task_of_views job waits]
    exact List.mem_append_right _ ((completed_conclude_question job id (.ok m) _).mpr rfl)

/-- A question ends with the response to its request, or it fails without having got one. -/
theorem response_or_failure {s : Session} (ho : Orderly s) {u : Turn} {t : Nat} {q : Query}
    {line character : Json} (job : s.jobOf t = some (.call (.ask q line character)))
    {o : Except Failure Answer} (h : .completed t o ∈ (s.step u).effects) :
    (∃ id m, Concludes s u t id (.ok m) ∧ o = q.answer m) ∨
      (∃ f, o = .error f) ∧ ∀ id m, ¬ Concludes s u t id (.ok m) := by
  have hu := task?_of_completed h
  obtain ⟨r, rfl⟩ := Turn.exists_resume hu
  cases completed_question job ho h with
  | answered concludes => exact .inl ⟨_, _, concludes, rfl⟩
  | refused created =>
    -- what is not asked yet waits for nothing
    refine .inr ⟨⟨_, rfl⟩, fun id m hc => ?_⟩
    obtain ⟨w, hw, -⟩ := hc.waitOf
    rw [waitOf_of_progressOf created] at hw
    cases hw
  | cancelled =>
    refine .inr ⟨⟨_, rfl⟩, fun id m hc => ?_⟩
    cases hc
  | unwritten =>
    refine .inr ⟨⟨_, rfl⟩, fun id m hc => ?_⟩
    cases hc
  | failed concludes =>
    -- a wait has one reply
    refine .inr ⟨⟨_, rfl⟩, fun id m hc => ?_⟩
    obtain ⟨w, hw, -, hreply⟩ := concludes.waitOf
    obtain ⟨w', hw', -, hreply'⟩ := hc.waitOf
    obtain rfl : w = w' := Option.some.inj (hw.symm.trans hw')
    rw [hreply] at hreply'
    cases hreply'

/-- **A question ends once.** -/
theorem completed_once {s : Session} (ho : Orderly s) {u : Turn} {t : Nat} {q : Query}
    {line character : Json} (job : s.jobOf t = some (.call (.ask q line character)))
    {o : Except Failure Answer} (h : .completed t o ∈ (s.step u).effects) (g : List Turn) (v : Turn)
    (o' : Except Failure Answer) : .completed t o' ∉ (((s.step u).session.after g).step v).effects := by
  have hu := task?_of_completed h
  obtain ⟨r, rfl⟩ := Turn.exists_resume hu
  have hboth : Orderly ((s.resume t r).session.after g) ∧
      ((s.resume t r).session.after g).progressOf t = some .finished :=
    after_preserves (P := fun x => Orderly x ∧ x.progressOf t = some .finished)
      (fun x w hx => ⟨hx.1.step w, hx.1.finished_step w hx.2⟩)
      ⟨ho.step (.resume t r), finished_of_completed job ho h⟩ g
  exact not_completed_of_finished hboth.2 v o'

/-- **Requests and responses correlate.** After every history, in whatever turn comes next:

* a request that gets a response gets the first message since its registration that answers it, gets no
  reply ever again, and a question that made it ends with that response;
* a question that ends does so with a response that it gets in this turn, or fails without one, and it
  never ends again;
* a message resolves at most one request;
* a message with a method, and one that answers nothing pending, changes neither the table nor any
  task. -/
theorem responses_correlate (p : Profile) (h : List Turn) :
    (∀ u t id m, Concludes ((new p).after h) u t id (.ok m) →
      FirstAnswer p h t id m ∧
      (∀ g v t' r, ¬ Concludes ((new p).after (h ++ u :: g)) v t' id r) ∧
      ∀ q line character, ((new p).after h).jobOf t = some (.call (.ask q line character)) →
        .completed t (q.answer m) ∈ (((new p).after h).step u).effects) ∧
    (∀ u t q line character o, ((new p).after h).jobOf t = some (.call (.ask q line character)) →
      .completed t o ∈ (((new p).after h).step u).effects →
      ((∃ id m, Concludes ((new p).after h) u t id (.ok m) ∧ o = q.answer m) ∨
        (∃ f, o = .error f) ∧ ∀ id m, ¬ Concludes ((new p).after h) u t id (.ok m)) ∧
      ∀ g v o', .completed t o' ∉ (((new p).after (h ++ u :: g)).step v).effects) ∧
    (∀ m, ResolvesAtMostOne ((new p).after h) m) ∧
    (∀ m, (HasMethod m ∨ ∀ x ∈ ((new p).after h).pending, ¬ Answers m x.1) →
      PassesOver ((new p).after h) m) := by
  have hcons := consistent_after p h
  have hord := orderly_after p h
  refine ⟨fun u t id m hc => ⟨?_, fun g v t' r => ?_, fun q line character hj => hc.completed hord hj⟩,
    fun u t q line character o hj hm => ⟨response_or_failure hord hj hm, fun g v o' => ?_⟩,
    resolvesAtMostOne hcons, fun m hm => passesOver hm⟩
  · obtain ⟨w, hw, rfl, hr⟩ := hc.waitOf
    exact (traced p h t w hw).answered m hr
  · rw [after_append]
    exact ((hc.retired hcons).after g).not_concludes
  · rw [after_append]
    exact completed_once hord hj hm g v o'

/-- A hover's request under the id 1, written before two messages come with ids that are one key with 1:
the first is what the hover gets. -/
theorem hover_gets_first_answer :
    let p : Profile := ⟨"/a.txt", .str "text", "/", .int 0, false, false, 1⟩
    FirstAnswer p
      [.call (.ask .hover (.int 1) (.int 2)), .resume 0 .begins,
        .resume 0 (.returned (.ok "")), .receive (.obj [("id", .bool true)]),
        .receive (.obj [("id", .int 1)])]
      0 1 (.obj [("id", .bool true)]) := by
  intro p
  refine ((responses_correlate p _).1 (.resume 0 .replied) 0 1 _ ?_).1
  exact .replied (show progressOf _ 0
    = some (.requesting (.ask .hover) 1 true (some (.ok (.obj [("id", .bool true)])))) from rfl)

end EditorServices.Session
