import EditorServices.Proofs.Session.Telling

/-!
# `Proofs.Session.TellingOrder` — when a subscriber is told of messages in their order

Look at how many subscribers each telling has left. Tellings begin in the order of the messages. As long as
the pauses of each subscriber before a given one end in that order too, no telling has more left than a later
one, as far as that subscriber (`Lined`): a telling stops at the first subscriber that pauses, so one that
overtakes another has to do it at a pause. A subscriber who is told of a message is then left by no earlier
telling, so it is told of the messages in their order (`invocations_eq`).

## Contents
- **Suffixes.** Who is among the last ones of some.
- **One turn.** `Lined` and `InTurn`; `Attuned.left_le`, and `Lined.step`.
- **Histories.** `AllInTurn`, and `invocations_eq`.
-/

namespace EditorServices.Session

/-! ## Suffixes -/

/-- Of the last ones of some, one is among them if they are more than those behind it. -/
theorem mem_suffix_iff {early late part : List Subscriber} {who : Subscriber}
    (hnodup : (early ++ who :: late).Nodup) (hpart : part <:+ early ++ who :: late) :
    who ∈ part ↔ late.length < part.length := by
  have hlate : who :: late <:+ early ++ who :: late := List.suffix_append _ _
  constructor
  · intro hmem
    refine Nat.lt_of_not_le fun hle => ?_
    have hsuffix := List.suffix_of_suffix_length_le hpart ((List.suffix_cons who late).trans hlate) hle
    exact (List.nodup_cons.mp (hnodup.sublist hlate.sublist)).1 (hsuffix.subset hmem)
  · intro hlt
    exact (List.suffix_of_suffix_length_le hlate hpart hlt).subset List.mem_cons_self

/-- Who is followed by more than those behind another one comes before that one. -/
theorem mem_of_suffix {early late rest : List Subscriber} {first who : Subscriber}
    (hsuffix : first :: rest <:+ early ++ who :: late) (hlt : late.length < rest.length) : first ∈ early := by
  obtain ⟨front, heq⟩ := hsuffix
  have hlength := congrArg List.length heq
  rw [List.length_append, List.length_append, List.length_cons, List.length_cons] at hlength
  have hfirst : (early ++ who :: late)[front.length]? = some first := by
    rw [← heq, List.getElem?_append_right (Nat.le_refl _), Nat.sub_self]
    rfl
  rw [List.getElem?_append_left (by omega)] at hfirst
  exact List.mem_of_getElem? hfirst

/-! ## One turn -/

/-- No telling has more subscribers left than a later one, apart from the last of them. -/
def Lined (s : Session) (last : Nat) : Prop :=
  s.tellings.Pairwise fun x y => (s.untold x.stage).length ≤ max (s.untold y.stage).length last

/-- A turn does not let a telling begin before an earlier one, nor end the pause of one of some subscribers
that pauses for an earlier message too. -/
structure InTurn (s : Session) (early : List Subscriber) (u : Turn) : Prop where
  begins : ∀ t n, s.tasks[t]? = some ⟨.publish n, .created⟩ → u = .resume t .begins →
    ∀ x ∈ s.tellingsBefore t, x.stage ≠ .created
  rests : ∀ t n who rest, s.tasks[t]? = some ⟨.publish n, .telling who rest⟩ → u = .resume t .rested →
    who ∈ early → ∀ x ∈ s.tellingsBefore t, ∀ rest', x.stage ≠ .telling who rest'

namespace Attuned

variable {s : Session} {whos : List Subscriber} {t : Nat} {n : Notification}

/-- Who is left behind a pause of a run, is left by the run. -/
theorem left_le_of_pause (h : Attuned s whos) {p q : Progress} (later : s.untold q = toldLater (s.untold p))
    {x : Telling} (hx : x ∈ s.tellings) {first : Subscriber} {rest : List Bus.Subscription}
    (hstage : x.stage = .telling first rest) (behind : first :: s.audience rest <:+ s.untold p) :
    (s.untold x.stage).length ≤ (s.untold q).length := by
  have hpauses := (h.paused x hx first rest hstage).1
  rw [later, hstage]
  exact (suffix_toldLater hpauses behind).length_le

/-- If no earlier telling is still to begin, none has more left than one that begins. -/
theorem left_le_begun (h : Attuned s whos) {q : Progress} (later : s.untold q = toldLater (s.untold .created))
    {x : Telling} (hx : x ∈ s.tellings) (begun : x.stage ≠ .created) :
    (s.untold x.stage).length ≤ (s.untold q).length := by
  cases hstage : x.stage with
  | created => exact absurd hstage begun
  | telling first rest =>
    rw [← hstage]
    refine h.left_le_of_pause later hx hstage ?_
    show _ <:+ s.hearers
    rw [h.hearers]
    exact (h.paused x hx first rest hstage).2
  | _ => exact Nat.zero_le _

/-- If no earlier telling waits for the subscriber that paused, none that was no further has more left than one
that goes on after its pause. -/
theorem left_le_rested (h : Attuned s whos) {first : Subscriber} {rest : List Bus.Subscription}
    (here : s.tasks[t]? = some ⟨.publish n, .telling first rest⟩) {q : Progress}
    (later : s.untold q = toldLater (s.audience rest)) {x : Telling} (hx : x ∈ s.tellings)
    (hle : (s.untold x.stage).length ≤ (s.audience rest).length)
    (other : ∀ rest', x.stage ≠ .telling first rest') : (s.untold x.stage).length ≤ (s.untold q).length := by
  obtain ⟨-, hsuffix⟩ := h.paused _ (mem_tellings here) first rest rfl
  cases hstage : x.stage with
  | created =>
    have hall : s.untold x.stage = whos := by
      rw [hstage]
      exact h.hearers
    have hlength := hsuffix.length_le
    rw [hall] at hle
    rw [List.length_cons] at hlength
    omega
  | telling second others =>
    obtain ⟨-, hsecond⟩ := h.paused x hx second others hstage
    have hleft : (s.untold x.stage).length = (s.audience others).length := by
      rw [hstage]
      rfl
    rw [← hstage]
    refine h.left_le_of_pause (p := .telling first rest) later hx hstage ?_
    show second :: s.audience others <:+ s.audience rest
    rcases Nat.lt_or_ge (s.audience others).length (s.audience rest).length with hlt | hge
    · exact List.suffix_of_suffix_length_le hsecond ((List.suffix_cons first _).trans hsuffix) hlt
    · -- as many are left behind both pauses, so it is the pause of one subscriber
      have hsame : (s.audience others).length = (s.audience rest).length := by omega
      have heq := (List.suffix_of_suffix_length_le hsecond hsuffix (by simp [hsame])).eq_of_length
        (by simp [hsame])
      obtain rfl : second = first := (List.cons.inj heq).1
      exact absurd hstage (other others)
  | _ => exact Nat.zero_le _

/-- After a run that keeps the order, no earlier telling has more left than this one. -/
theorem left_le {early late : List Subscriber} {who : Subscriber} (h : Attuned s (early ++ who :: late))
    (lined : Lined s late.length) {u : Turn} (inTurn : InTurn s early u) {p q : Progress}
    (here : s.tasks[t]? = some ⟨.publish n, p⟩) {r : Resumption} (turn : u = .resume t r) (runs : p.Runs r)
    (later : s.untold q = toldLater (s.untold p)) {x : Telling} (hx : x ∈ s.tellingsBefore t) :
    (s.untold x.stage).length ≤ max (s.untold q).length late.length := by
  obtain ⟨hsplit, -⟩ := tellings_moveTask here q
  have hmem : x ∈ s.tellings := hsplit ▸ List.mem_append_left _ hx
  subst turn
  rcases runs with ⟨rfl, rfl⟩ | ⟨first, rest, rfl, rfl⟩
  · have hbegun := inTurn.begins t n here rfl x hx
    exact Nat.le_trans (h.left_le_begun later hmem hbegun) (Nat.le_max_left _ _)
  · have hbefore : (s.untold x.stage).length ≤ max (s.audience rest).length late.length := by
      unfold Lined at lined
      rw [hsplit] at lined
      exact (List.pairwise_append.mp lined).2.2 x hx _ List.mem_cons_self
    by_cases hlast : (s.untold x.stage).length ≤ late.length
    · exact Nat.le_trans hlast (Nat.le_max_right _ _)
    -- the subscriber that paused comes before the given one, and no earlier message waits for it
    obtain ⟨-, hsuffix⟩ := h.paused _ (mem_tellings here) first rest rfl
    have hearly : first ∈ early := mem_of_suffix hsuffix (by omega)
    have hother := inTurn.rests t n first rest here rfl hearly x hx
    exact Nat.le_trans (h.left_le_rested here later hmem (by omega) hother) (Nat.le_max_left _ _)

end Attuned

/-! ## Histories -/

/-- The turns of a history let no telling begin before an earlier one, nor end the pause of one of some
subscribers that pauses for an earlier message too. -/
def AllInTurn (early : List Subscriber) (s : Session) : List Turn → Prop
  | [] => True
  | u :: hs => InTurn s early u ∧ AllInTurn early (s.step u).session hs

section

variable {early late : List Subscriber} {who : Subscriber}
  (distinct : ((early ++ who :: late).map Subscriber.name).Nodup)
include distinct

/-- **Turns that keep the order of the messages leave the tellings lined up.** -/
theorem Lined.step {s : Session} (h : Attuned s (early ++ who :: late)) (lined : Lined s late.length) {u : Turn}
    (spares : Spares s u) (inTurn : InTurn s early u) : Lined (s.step u).session late.length := by
  have hturn := h.tellTurn_step distinct spares
  unfold Lined
  rw [hturn.untold]
  cases hturn with
  | apart unheard added =>
    -- what comes in is left to everybody
    have hall {x : Telling} (hx : x ∈ (newsIn s.profile [u]).map fun n => (⟨n, .created⟩ : Telling)) :
        s.untold x.stage = early ++ who :: late := by
      obtain ⟨n, -, rfl⟩ := List.mem_map.mp hx
      exact h.hearers
    rw [added]
    refine List.pairwise_append.mpr ⟨lined, ?_, fun x hx y hy => ?_⟩
    · refine List.Pairwise.imp_of_mem (fun {x y} hx hy _ => ?_)
        (List.pairwise_of_forall (R := fun _ _ => True) fun _ _ => trivial)
      rw [hall hx, hall hy]
      exact Nat.le_max_left _ _
    · rw [hall hy]
      exact Nat.le_trans (h.untold_suffix hx).length_le (Nat.le_max_left _ _)
  | run t n p q r turn here runs ran =>
    obtain ⟨hsplit, hmoved⟩ := tellings_moveTask here q
    have hfewer : (s.untold q).length ≤ (s.untold p).length := by
      rw [ran.later]
      exact List.IsSuffix.length_le ⟨_, toldFirst_append_toldLater (s.untold p)⟩
    have hparts := lined
    unfold Lined at hparts
    rw [hsplit, List.pairwise_append, List.pairwise_cons] at hparts
    obtain ⟨hbefore, ⟨hhead, hbehind⟩, hacross⟩ := hparts
    -- later tellings are not passed, for this one has no more left than before; the earlier ones are `left_le`
    rw [ran.moved, hmoved]
    refine List.pairwise_append.mpr ⟨hbefore, List.pairwise_cons.mpr ⟨fun y hy => ?_, hbehind⟩,
      fun x hx y hy => ?_⟩
    · exact Nat.le_trans hfewer (hhead y hy)
    · rcases List.mem_cons.mp hy with rfl | hy
      · exact h.left_le lined inTurn here turn runs ran.later hx
      · exact hacross x hx y (List.mem_cons_of_mem _ hy)

/-- A subscriber is told of the earliest message of which it is still to be told. -/
theorem Attuned.invocations_step {s : Session} (h : Attuned s (early ++ who :: late)) (lined : Lined s late.length)
    {u : Turn} (spares : Spares s u) (inTurn : InTurn s early u) :
    invocations who (s.step u).effects ++ (s.step u).session.owed who = s.owed who ++ newsIn s.profile [u] := by
  have hnodup : (early ++ who :: late).Nodup := List.Nodup.of_map _ distinct
  have hnext := lined.step distinct h spares inTurn
  have huntold := (h.tellTurn_step distinct spares).untold
  cases h.owed_step distinct (List.mem_append_right _ List.mem_cons_self) spares with
  | apart silent added => rw [silent, added, List.nil_append]
  | told t n p q behind here moved invoked stale owed left done =>
    obtain ⟨hsplit, hmoved⟩ := tellings_moveTask here q
    -- it is not left by this telling any more, so it is left by none of the earlier ones
    have hnobody : (s.tellingsBefore t).filterMap (s.owes? who) = [] := by
      refine List.filterMap_eq_nil_iff.mpr fun x hx => if_neg fun hmem => ?_
      have hq : s.untold q <:+ early ++ who :: late := by
        have hsuffix := (h.step distinct spares).untold_suffix (x := ⟨n, q⟩) (by rw [moved, hmoved]; simp)
        rwa [huntold] at hsuffix
      have hdone := mt (mem_suffix_iff hnodup hq).mpr done
      have hx' : x ∈ s.tellings := hsplit ▸ List.mem_append_left _ hx
      have hleft := (mem_suffix_iff hnodup (h.untold_suffix hx')).mp hmem
      unfold Lined at hnext
      rw [huntold, moved, hmoved] at hnext
      have hle := (List.pairwise_append.mp hnext).2.2 x hx _ List.mem_cons_self
      dsimp only at hle
      omega
    rw [invoked, left, owed, stale, hnobody, List.append_nil]
    rfl

/-- **A subscriber is told of the messages in the order in which they came in**, if tellings begin in that
order and the pauses of each subscriber before it end in that order. -/
theorem invocations_eq {s : Session} {hs : List Turn} (h : Attuned s (early ++ who :: late))
    (lined : Lined s late.length) (undisturbed : Undisturbed s hs) (inTurn : AllInTurn early s hs) :
    invocations who (s.run hs).effects ++ (s.after hs).owed who = s.owed who ++ newsIn s.profile hs := by
  induction hs generalizing s with
  | nil => exact (List.append_nil _).symm
  | cons u hs ih =>
    obtain ⟨spares, hrest⟩ := undisturbed
    obtain ⟨hnow, hlater⟩ := inTurn
    have hafter := ih (h.step distinct spares) (lined.step distinct h spares hnow) hrest hlater
    rw [profile_step h.orderly u] at hafter
    calc invocations who (s.run (u :: hs)).effects ++ (s.after (u :: hs)).owed who
        = invocations who (s.step u).effects ++ (s.step u).session.owed who ++ newsIn s.profile hs := by
          rw [invocations_cons, after_cons, List.append_assoc, hafter, List.append_assoc]
      _ = s.owed who ++ (newsIn s.profile [u] ++ newsIn s.profile hs) := by
          rw [h.invocations_step distinct lined spares hnow, List.append_assoc]
      _ = s.owed who ++ newsIn s.profile (u :: hs) := by
          rw [newsIn_cons s.profile u hs]

end

end EditorServices.Session
