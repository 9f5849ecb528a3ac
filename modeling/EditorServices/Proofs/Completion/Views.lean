import EditorServices.Completion.Registry
import EditorServices.Proofs.Json.DistinctNames
import EditorServices.Proofs.Schema.Readings
import Mathlib.Data.List.Induction
import Mathlib.Data.List.Nodup

/-!
# `Proofs.Completion.Views` — what a registry lists after any history

A registry can be asked for all providers, for those of one trigger character, and for all trigger
characters. A provider that takes the place of another one stays where that one stood; one that comes back
after a removal comes last. So the place of an id says when it entered for its present stay, while the provider
under it may be a later one. All of this is said of the history alone: what was registered and removed, with
nothing about how a registry keeps it.

## Contents
- **Registrations.** Which arguments are accepted, and as what provider.
- **Changes.** `Change`, what it registers and removes, and the registry after a history.
- **Histories.** `Live`, `Latest` and `EnteredAt`, each about an entry after which nothing of a kind comes.
- **Keeping.** `Keeps`, which ties a registry to its history, for one change and for all.
- **Trigger characters.** Each once, in the order of their first occurrences.
- **The headline.** `views_agree`.
-/

namespace EditorServices.Completion

open Schema

/-! ## Registrations -/

/-- **A registration is accepted exactly if the id is a text and texts are listed** as trigger characters. -/
theorem Provider.read_eq_ok_iff {id triggers : Json} {behaviour : Behaviour} {p : Provider} :
    Provider.read id triggers behaviour = .ok p ↔
      id = .str p.id ∧ triggerList triggers = .ok (p.triggers.map .str) ∧ p.behaviour = behaviour := by
  constructor
  · intro h
    unfold read at h
    cases hlist : triggerList triggers with
    | error f =>
      rw [hlist] at h
      cases h
    | ok given =>
      rw [hlist] at h
      obtain ⟨_, texts, hname, htexts, rfl⟩ := Checked.ap_eq_valid (Checked.outcome_eq_ok_iff.mp h)
      obtain ⟨name, hid, rfl⟩ := Checked.map_eq_valid_iff.mp hname
      have hgiven := listOf_string_eq_valid_iff.mp (Checked.under_eq_valid_iff.mp htexts)
      exact ⟨string_eq_valid_iff.mp (Checked.under_eq_valid_iff.mp hid), congrArg Except.ok hgiven, rfl⟩
  · rintro ⟨rfl, hlist, rfl⟩
    have htexts : listOf string (.arr (p.triggers.map .str)) = .valid p.triggers :=
      listOf_string_eq_valid_iff.mpr rfl
    unfold read
    rw [hlist]
    dsimp only [bind, Except.bind]
    rw [htexts]
    rfl

namespace Registry

/-! ## Changes -/

/-- A call that may change a registry, with arguments of any kind. -/
inductive Change where
  | register (id triggers : Json) (behaviour : Behaviour)
  | unregister (id : Json)

namespace Change

/-- A provider is registered: under an id that is a text, with texts listed as trigger characters. -/
def Registers (c : Change) (p : Provider) : Prop :=
  ∃ triggers, c = .register (.str p.id) triggers p.behaviour ∧
    Provider.triggerList triggers = .ok (p.triggers.map .str)

/-- The provider of an id is removed, if there is one. -/
def Removes (c : Change) (id : String) : Prop := c = .unregister (.str id)

variable {c : Change} {p q : Provider} {id name : String}

theorem Registers.not_removes (h : c.Registers p) : ¬ c.Removes id := by
  obtain ⟨triggers, rfl, -⟩ := h
  exact nofun

theorem Registers.unique (h : c.Registers p) (h' : c.Registers q) : p = q := by
  obtain ⟨triggers, rfl, listed⟩ := h
  obtain ⟨triggers', heq, listed'⟩ := h'
  obtain ⟨hid, rfl, hbehaviour⟩ := Change.register.inj heq
  have hread := Provider.read_eq_ok_iff.mpr ⟨rfl, listed, rfl⟩
  rw [Provider.read_eq_ok_iff.mpr ⟨hid, listed', hbehaviour.symm⟩] at hread
  exact (Except.ok.inj hread).symm

theorem Removes.unique (h : c.Removes id) (h' : c.Removes name) : id = name := by
  rw [h] at h'
  exact Json.str.inj (Change.unregister.inj h')

end Change

/-- The registry after a change. A registration that is refused changes nothing. -/
def change (r : Registry) : Change → Registry
  | .register id triggers behaviour =>
    match Provider.read id triggers behaviour with
    | .ok p => r.register p
    | .error _ => r
  | .unregister id => (r.remove id).1

/-- The registry after a history that began with an empty one. -/
def after (history : List Change) : Registry := history.foldl change empty

theorem after_concat (history : List Change) (c : Change) :
    after (history ++ [c]) = (after history).change c := by
  simp [after]

/-- What one change can do. -/
theorem change_cases (r : Registry) (c : Change) :
    (∃ p, c.Registers p ∧ r.change c = r.register p) ∨
      (∃ id, c.Removes id ∧ r.change c = (r.unregister id).1) ∨
      ((∀ p, ¬ c.Registers p) ∧ (∀ id, ¬ c.Removes id) ∧ r.change c = r) := by
  cases c with
  | register id triggers behaviour =>
    cases hread : Provider.read id triggers behaviour with
    | ok p =>
      obtain ⟨rfl, listed, rfl⟩ := Provider.read_eq_ok_iff.mp hread
      exact .inl ⟨p, ⟨triggers, rfl, listed⟩, by rw [change, hread]⟩
    | error f =>
      refine .inr (.inr ⟨?_, nofun, by rw [change, hread]⟩)
      rintro p ⟨_, heq, listed⟩
      obtain ⟨rfl, rfl, rfl⟩ := Change.register.inj heq
      rw [Provider.read_eq_ok_iff.mpr ⟨rfl, listed, rfl⟩] at hread
      cases hread
  | unregister id =>
    have hnone (p : Provider) : ¬ (Change.unregister id).Registers p := by
      rintro ⟨_, heq, -⟩
      cases heq
    cases id with
    | str id => exact .inr (.inl ⟨id, rfl, rfl⟩)
    | _ => exact .inr (.inr ⟨hnone, nofun, rfl⟩)

/-! ## Histories -/

/-- An entry of a history for which something holds, with what came before it, and after which all entries are
of some kind. -/
def Since (history : List Change) (holds : List Change → Change → Prop) (kind : Change → Prop) : Prop :=
  ∃ before c later, history = before ++ c :: later ∧ holds before c ∧ ∀ d ∈ later, kind d

theorem since_concat {history : List Change} {c : Change} {holds : List Change → Change → Prop}
    {kind : Change → Prop} :
    Since (history ++ [c]) holds kind ↔ holds history c ∨ Since history holds kind ∧ kind c := by
  constructor
  · rintro ⟨before, d, later, heq, hd, hlater⟩
    rcases List.eq_nil_or_concat later with rfl | ⟨later, last, rfl⟩
    · obtain ⟨rfl, hlast⟩ := List.append_inj' heq rfl
      cases hlast
      exact .inl hd
    · rw [List.concat_eq_append, ← List.cons_append, ← List.append_assoc] at heq
      obtain ⟨rfl, hlast⟩ := List.append_inj' heq rfl
      cases hlast
      refine .inr ⟨⟨before, d, later, rfl, hd, fun e he => hlater e ?_⟩, hlater c ?_⟩ <;> simp_all
  · rintro (hc | ⟨⟨before, d, later, rfl, hd, hlater⟩, hc⟩)
    · exact ⟨history, c, [], rfl, hc, fun _ h => by cases h⟩
    · refine ⟨before, d, later ++ [c], by simp, hd, fun e he => ?_⟩
      rcases List.mem_append.mp he with he | he
      · exact hlater e he
      · rw [List.mem_singleton.mp he]
        exact hc

/-- An id is live: a provider was registered under it, and none was removed since. -/
def Live (history : List Change) (id : String) : Prop :=
  Since history (fun _ c => ∃ p, c.Registers p ∧ p.id = id) fun d => ¬ d.Removes id

/-- A provider was registered, and since then it was not removed and no other took its place. -/
def Latest (history : List Change) (p : Provider) : Prop :=
  Since history (fun _ c => c.Registers p) fun d =>
    ¬ d.Removes p.id ∧ ∀ q, d.Registers q → q.id ≠ p.id

/-- The moment at which an id entered for its present stay: a provider was registered under it when it was not
live, and none was removed since. Moments are counted by what happened before them. -/
def EnteredAt (history : List Change) (id : String) (moment : Nat) : Prop :=
  Since history
    (fun before c => before.length = moment ∧ ¬ Live before id ∧ ∃ p, c.Registers p ∧ p.id = id)
    fun d => ¬ d.Removes id

section
variable {history : List Change} {c : Change} {p q : Provider} {id name : String} {moment : Nat}

theorem EnteredAt.lt (h : EnteredAt history id moment) : moment < history.length := by
  obtain ⟨before, d, later, rfl, ⟨rfl, -⟩, -⟩ := h
  simp

theorem EnteredAt.concat (h : EnteredAt history id moment) (hc : ¬ c.Removes id) :
    EnteredAt (history ++ [c]) id moment := since_concat.mpr (.inr ⟨h, hc⟩)

/-- A live id entered at some moment. -/
theorem Live.entered (h : Live history id) : ∃ moment, EnteredAt history id moment := by
  induction history using List.reverseRecOn with
  | nil =>
    obtain ⟨before, c, later, heq, -⟩ := h
    simp at heq
  | append_singleton history c ih =>
    by_cases hlive : Live history id
    · obtain ⟨moment, hentered⟩ := ih hlive
      have hc : ¬ c.Removes id := by
        rcases since_concat.mp h with ⟨p, hreg, -⟩ | ⟨-, hc⟩
        · exact hreg.not_removes
        · exact hc
      exact ⟨moment, hentered.concat hc⟩
    · have hnew := (since_concat.mp h).resolve_right fun hold => hlive hold.1
      exact ⟨history.length, since_concat.mpr (.inl ⟨rfl, hlive, hnew⟩)⟩

/-- The ids that are live after a registration, and the latest providers. -/
theorem live_of_registers (hc : c.Registers p) : Live (history ++ [c]) id ↔ id = p.id ∨ Live history id := by
  unfold Live
  rw [since_concat, and_iff_left hc.not_removes]
  refine or_congr_left ⟨?_, fun heq => ⟨p, hc, heq.symm⟩⟩
  rintro ⟨q, hq, rfl⟩
  rw [hc.unique hq]

theorem latest_of_registers (hc : c.Registers p) :
    Latest (history ++ [c]) q ↔ q = p ∨ Latest history q ∧ q.id ≠ p.id := by
  unfold Latest
  rw [since_concat]
  refine or_congr ⟨fun hq => hq.unique hc, fun heq => heq ▸ hc⟩ (and_congr_right fun _ => ?_)
  refine ⟨fun h => (h.2 p hc).symm, fun hne => ⟨hc.not_removes, fun q' hq' => ?_⟩⟩
  rw [← hc.unique hq']
  exact hne.symm

/-- The ids that are live after a removal, and the latest providers. -/
theorem live_of_removes (hc : c.Removes name) : Live (history ++ [c]) id ↔ Live history id ∧ id ≠ name := by
  unfold Live
  rw [since_concat, or_iff_right fun ⟨p, hp, _⟩ => hp.not_removes hc]
  refine and_congr_right fun _ => not_congr ⟨fun h => h.unique hc, fun heq => heq ▸ hc⟩

theorem latest_of_removes (hc : c.Removes name) :
    Latest (history ++ [c]) q ↔ Latest history q ∧ q.id ≠ name := by
  unfold Latest
  rw [since_concat, or_iff_right fun hq => hq.not_removes hc]
  refine and_congr_right fun _ => ⟨fun h heq => h.1 (heq ▸ hc), fun hne => ⟨fun h => hne (h.unique hc), ?_⟩⟩
  exact fun q' hq' => absurd hc hq'.not_removes

end

/-! ## Keeping -/

/-- What ties a registry to its history: each provider stands under its id, ids stand once, those that stand are
the live ones in the order in which they entered, and the latest provider of each stands under it. -/
structure Keeps (r : Registry) (history : List Change) : Prop where
  named : ∀ entry ∈ r.providers, entry.1 = entry.2.id
  once : (r.providers.map Prod.fst).Nodup
  live : ∀ id, id ∈ r.providers.map Prod.fst ↔ Live history id
  latest : ∀ p, (p.id, p) ∈ r.providers ↔ Latest history p
  byEntry : (r.providers.map Prod.fst).Pairwise fun id name =>
    ∃ m n, EnteredAt history id m ∧ EnteredAt history name n ∧ m < n

section
variable {r : Registry} {history : List Change} {c : Change} {p : Provider} {id : String}

theorem keeps_empty : empty.Keeps [] := by
  have hnone {holds : List Change → Change → Prop} {kind : Change → Prop} : ¬ Since [] holds kind := by
    rintro ⟨before, c, later, heq, -⟩
    simp at heq
  refine ⟨nofun, .nil, fun id => ?_, fun p => ?_, .nil⟩
  · exact ⟨nofun, fun h => absurd h hnone⟩
  · exact ⟨nofun, fun h => absurd h hnone⟩

/-- The order of entry is the same after a change that removes none of the ids. -/
theorem byEntry_concat {ids : List String}
    (h : ids.Pairwise fun id name => ∃ m n, EnteredAt history id m ∧ EnteredAt history name n ∧ m < n)
    (hc : ∀ id ∈ ids, ¬ c.Removes id) :
    ids.Pairwise fun id name =>
      ∃ m n, EnteredAt (history ++ [c]) id m ∧ EnteredAt (history ++ [c]) name n ∧ m < n := by
  refine h.imp_of_mem ?_
  rintro id name hid hname ⟨m, n, hm, hn, hlt⟩
  exact ⟨m, n, hm.concat (hc id hid), hn.concat (hc name hname), hlt⟩

theorem Keeps.register (h : r.Keeps history) (hc : c.Registers p) : (r.register p).Keeps (history ++ [c]) where
  named entry hentry := by
    rcases (Named.mem_put_iff h.once).mp hentry with rfl | ⟨hold, -⟩
    · rfl
    · exact h.named entry hold
  once := Named.nodup_put h.once _ _
  live id := by
    rw [live_of_registers hc, ← h.live id, Registry.register, Named.names_put]
    split
    · next hmem => exact ⟨.inr, fun hor => hor.elim (fun heq => heq ▸ hmem) fun hold => hold⟩
    · rw [List.mem_append, List.mem_singleton, or_comm]
  latest q := by
    rw [latest_of_registers hc, ← h.latest q]
    exact (Named.mem_put_iff h.once).trans (or_congr_left ⟨fun heq => congrArg Prod.snd heq, fun heq => heq ▸ rfl⟩)
  byEntry := by
    have hold := byEntry_concat h.byEntry fun _ _ => hc.not_removes
    rw [Registry.register, Named.names_put]
    split
    · exact hold
    · next hnew =>
      -- a new id enters now, after all that entered before
      have hentered : EnteredAt (history ++ [c]) p.id history.length :=
        since_concat.mpr (.inl ⟨rfl, fun hlive => hnew ((h.live p.id).mpr hlive), p, hc, rfl⟩)
      refine List.pairwise_append.mpr ⟨hold, List.pairwise_singleton _ _, fun id hid name hname => ?_⟩
      obtain ⟨m, hm⟩ := ((h.live id).mp hid).entered
      rw [List.mem_singleton.mp hname]
      exact ⟨m, history.length, hm.concat hc.not_removes, hentered, hm.lt⟩

theorem Keeps.unregister (h : r.Keeps history) (hc : c.Removes id) :
    (r.unregister id).1.Keeps (history ++ [c]) := by
  have hnames : (r.providers.erase id).map Prod.fst = (r.providers.map Prod.fst).filter (· != id) := by
    rw [Named.erase, List.filter_map]
    rfl
  refine ⟨fun entry hentry => h.named entry (List.mem_filter.mp hentry).1, ?_, fun name => ?_, fun q => ?_, ?_⟩
  · rw [Registry.unregister, hnames]
    exact h.once.filter _
  · rw [live_of_removes hc, ← h.live name, Registry.unregister, hnames, List.mem_filter, bne_iff_ne]
  · rw [latest_of_removes hc, ← h.latest q, Registry.unregister, Named.erase, List.mem_filter, bne_iff_ne]
  · rw [Registry.unregister, hnames]
    refine byEntry_concat (h.byEntry.filter _) fun name hname hremoves => ?_
    exact bne_iff_ne.mp (List.mem_filter.mp hname).2 (hremoves.unique hc)

/-- A change that neither registers nor removes a provider leaves nothing in the history that counts. -/
theorem Keeps.idle (h : r.Keeps history) (hreg : ∀ p, ¬ c.Registers p) (hrem : ∀ id, ¬ c.Removes id) :
    r.Keeps (history ++ [c]) := by
  refine ⟨h.named, h.once, fun id => ?_, fun q => ?_, byEntry_concat h.byEntry fun id _ => hrem id⟩
  · rw [h.live id, Live, Live, since_concat, and_iff_left (hrem id), or_iff_right fun ⟨p, hp, _⟩ => hreg p hp]
  · rw [h.latest q, Latest, Latest, since_concat, or_iff_right (hreg q),
      and_iff_left ⟨hrem q.id, fun p hp => absurd hp (hreg p)⟩]

theorem Keeps.change (h : r.Keeps history) (c : Change) : (r.change c).Keeps (history ++ [c]) := by
  rcases change_cases r c with ⟨p, hc, heq⟩ | ⟨id, hc, heq⟩ | ⟨hreg, hrem, heq⟩
  · rw [heq]
    exact h.register hc
  · rw [heq]
    exact h.unregister hc
  · rw [heq]
    exact h.idle hreg hrem

/-- **A registry keeps what its history says**, whatever the history. -/
theorem keeps_after (history : List Change) : (after history).Keeps history := by
  induction history using List.reverseRecOn with
  | nil => exact keeps_empty
  | append_singleton history c ih =>
    rw [after_concat]
    exact ih.change c

end

/-! ## Trigger characters -/

/-- Texts, each once. -/
def distinct (texts : List String) : List String := texts.foldl addNew []

theorem distinct_concat (texts : List String) (c : String) :
    distinct (texts ++ [c]) = if c ∈ distinct texts then distinct texts else distinct texts ++ [c] := by
  rw [distinct, List.foldl_append]
  show addNew (distinct texts) c = _
  simp [addNew]

theorem mem_distinct {texts : List String} {c : String} : c ∈ distinct texts ↔ c ∈ texts := by
  induction texts using List.reverseRecOn with
  | nil => rfl
  | append_singleton texts last ih =>
    rw [distinct_concat]
    split
    · next hmem =>
      rw [ih, List.mem_append, List.mem_singleton, iff_self_or]
      exact fun heq => heq ▸ ih.mp (heq ▸ hmem)
    · rw [List.mem_append, List.mem_append, ih]

/-- Texts stand in the order in which they first occur, and so each once. -/
theorem pairwise_distinct (texts : List String) :
    (distinct texts).Pairwise fun a b => texts.idxOf a < texts.idxOf b := by
  induction texts using List.reverseRecOn with
  | nil => exact .nil
  | append_singleton texts last ih =>
    have hfirst {c : String} (hc : c ∈ distinct texts) : (texts ++ [last]).idxOf c = texts.idxOf c :=
      List.idxOf_append_of_mem (mem_distinct.mp hc)
    have hold : (distinct texts).Pairwise fun a b => (texts ++ [last]).idxOf a < (texts ++ [last]).idxOf b := by
      refine ih.imp_of_mem fun ha hb hlt => ?_
      rwa [hfirst ha, hfirst hb]
    rw [distinct_concat]
    split
    · exact hold
    · next hnew =>
      refine List.pairwise_append.mpr ⟨hold, List.pairwise_singleton _ _, fun a ha b hb => ?_⟩
      rw [List.mem_singleton.mp hb, hfirst ha,
        List.idxOf_append_of_notMem fun hmem => hnew (mem_distinct.mpr hmem)]
      have := List.idxOf_lt_length_of_mem (mem_distinct.mp ha)
      omega

theorem nodup_distinct (texts : List String) : (distinct texts).Nodup :=
  (pairwise_distinct texts).imp fun hlt heq => by simp [heq] at hlt

/-! ## The headline -/

/-- Providers are listed as a history says: one for each live id, the latest that was registered under it, in
the order in which the ids entered for their present stay. -/
structure Lists (listed : List Provider) (history : List Change) : Prop where
  live : ∀ id, Live history id ↔ ∃ p ∈ listed, p.id = id
  once : (listed.map (·.id)).Nodup
  latest : ∀ p, p ∈ listed ↔ Latest history p
  byEntry : listed.Pairwise fun p q => ∃ m n, EnteredAt history p.id m ∧ EnteredAt history q.id n ∧ m < n

theorem Keeps.lists {r : Registry} {history : List Change} (h : r.Keeps history) : Lists r.all history := by
  have hids : r.all.map (·.id) = r.providers.map Prod.fst := by
    rw [all, List.map_map]
    exact List.map_congr_left fun entry hentry => (h.named entry hentry).symm
  refine ⟨fun id => ?_, ?_, fun p => ?_, ?_⟩
  · rw [← h.live id, ← hids, List.mem_map]
  · rw [hids]
    exact h.once
  · rw [← h.latest p, all, List.mem_map]
    constructor
    · rintro ⟨entry, hentry, rfl⟩
      rw [← h.named entry hentry]
      exact hentry
    · exact fun hmem => ⟨_, hmem, rfl⟩
  · have hentry := h.byEntry
    rw [← hids] at hentry
    exact List.pairwise_map.mp hentry

/-- **The views of a registry agree**, whatever was registered and removed. All providers are listed as the
history says. Each trigger character is listed once, in the order in which it first occurs along all providers,
and the characters that are listed are those for which some provider is asked. -/
theorem views_agree (history : List Change) :
    let r := after history
    let occurrences := (r.providersFor none).flatMap (·.triggers)
    Lists (r.providersFor none) history ∧
    r.triggerCharacters.Nodup ∧
    (∀ c, c ∈ r.triggerCharacters ↔ r.providersFor (some c) ≠ []) ∧
    r.triggerCharacters.Pairwise fun a b => occurrences.idxOf a < occurrences.idxOf b := by
  intro r occurrences
  refine ⟨(keeps_after history).lists, nodup_distinct _, fun c => ?_, pairwise_distinct _⟩
  show c ∈ distinct (r.all.flatMap (·.triggers)) ↔ r.all.filter (fun p => p.triggers.contains c) ≠ []
  rw [mem_distinct, List.mem_flatMap, ne_eq, List.filter_eq_nil_iff]
  simp

/-- A provider that replaces another keeps its place, and one that comes back after a removal is the last. -/
example :
    let put (id : String) := Change.register (.str id) .null (.works 0 .nothing)
    ((after [put "a", put "b", put "a"]).providersFor none).map (·.id) = ["a", "b"] ∧
    ((after [put "a", put "b", .unregister (.str "a"), put "a"]).providersFor none).map (·.id) = ["b", "a"] := by
  decide +kernel

end Registry

end EditorServices.Completion
