import CatalogSearch.Proofs.Session.Archive
import CatalogSearch.Proofs.Session.Ledger
import CatalogSearch.Proofs.Session.Sending

/-!
# Reading a round from an archive

While the replies to a round come in from an archive, in any order and mixed with late
ones to earlier rounds, the board tells of the requests whose replies were applied what
the archive says, and nothing yet of the others.  Once the round has settled it tells of
all of them.
-/

namespace CatalogSearch

namespace Traffic

/-- A request of the round that was sent last, with its number. -/
def Latest (traffic : Traffic) (call : Nat) (request : Request) : Prop :=
  traffic.sent[call]? = some request ∧ request.round = traffic.session.rounds

/-- Replies come in and are pulled.  Those to the round that was sent last are honest, and
as given for each of its requests by number. -/
inductive Exchanges (archive : Archive) (replies : Nat → Reply) : Traffic → Traffic → Prop
  | refl (traffic : Traffic) : Exchanges archive replies traffic traffic
  | answer {traffic after : Traffic} (call : Nat) (reply : Reply)
      (hreply : ∀ request, traffic.Latest call request →
        reply = replies call ∧ archive.Honest request reply)
      (hrest : Exchanges archive replies (traffic.act (.answer call reply)) after) :
      Exchanges archive replies traffic after
  | pull {traffic after : Traffic} (operation : Operation) (hpulls : operation.pulls = true)
      (hrest : Exchanges archive replies (traffic.act (.operate operation)) after) :
      Exchanges archive replies traffic after

/-- What holds while the replies to a round come in, which was `begun` when it was sent. -/
structure Reading (archive : Archive) (replies : Nat → Reply) (begun traffic : Traffic) :
    Prop where
  coherent : Coherent traffic
  keeps : Session.Keeps begun.session traffic.session
  sent : traffic.sent = begun.sent
  rounds : traffic.session.rounds = begun.session.rounds
  ids : traffic.session.statuses.map Status.id = begun.session.statuses.map Status.id
  running : ∀ round, traffic.session.round = some round → round.id = traffic.session.rounds
  honest : ∀ entry ∈ traffic.queue, entry.2.round = traffic.session.rounds →
    archive.Honest entry.2.request entry.2.reply
  /-- Of a request without an applied reply nothing is told. -/
  fresh : ∀ call request, traffic.Latest call request → call ∉ traffic.applied →
    ∀ id ∈ request.sources, traffic.session.statuses.status id = .asked id
  told : ∀ call request, traffic.Latest call request → call ∈ traffic.applied →
    request.group ≠ .cache → archive.Told request traffic.session.statuses
  settled : traffic.session.round = none → ∀ call request, traffic.Latest call request →
    call ∈ traffic.applied
  /-- No reply to the running round is lost. -/
  arrived : traffic.session.round ≠ none → ∀ call request, traffic.Latest call request →
    call ∈ traffic.answered → call ∈ traffic.applied ++ traffic.queue.map Prod.fst
  kept : begun.applied ⊆ traffic.applied
  heard : ∀ call request, traffic.Latest call request → call ∈ traffic.answered →
    archive.Honest request (replies call)

/-- The requests of the round that was sent last ask different sources, all of which are on
the board. -/
structure Apart (traffic : Traffic) : Prop where
  onBoard : ∀ call request, traffic.Latest call request →
    request.sources ⊆ traffic.session.statuses.map Status.id
  disjoint : ∀ call request other another, traffic.Latest call request →
    traffic.Latest other another → call ≠ other → request.sources.Disjoint another.sources

namespace Reading

variable {archive : Archive} {replies : Nat → Reply} {begun traffic : Traffic}

theorem latest_iff (h : Reading archive replies begun traffic) {call : Nat} {request : Request} :
    traffic.Latest call request ↔ begun.Latest call request := by
  rw [Latest, Latest, h.sent, h.rounds]

theorem receive (h : Reading archive replies begun traffic) {call : Nat} {request : Request}
    {reply : Reply} (hcall : traffic.sent[call]? = some request)
    (hnew : call ∉ traffic.answered)
    (hreply : traffic.Latest call request →
      reply = replies call ∧ archive.Honest request reply) :
    Reading archive replies begun
      { traffic with
        session := traffic.session.deliver ⟨request, reply⟩
        answered := traffic.answered ++ [call]
        queue := traffic.queue ++ [(call, ⟨request, reply⟩)] } where
  coherent := h.coherent.receive hcall hnew reply
  keeps := h.keeps.trans ⟨rfl, rfl, rfl⟩
  sent := h.sent
  rounds := h.rounds
  ids := h.ids
  running := h.running
  honest := by
    intro entry hentry hround
    obtain hentry | hentry := List.mem_append.1 hentry
    · exact h.honest entry hentry hround
    · rw [List.mem_singleton.1 hentry] at hround ⊢
      exact (hreply ⟨hcall, hround⟩).2
  fresh := h.fresh
  told := h.told
  settled := h.settled
  arrived := by
    intro hround other another hlatest hanswered
    rw [List.map_append, ← List.append_assoc]
    obtain hanswered | hanswered := List.mem_append.1 hanswered
    · exact List.mem_append_left _ (h.arrived hround other another hlatest hanswered)
    · exact List.mem_append_right _ hanswered
  kept := h.kept
  heard := by
    intro other another hlatest hanswered
    obtain hanswered | hanswered := List.mem_append.1 hanswered
    · exact h.heard other another hlatest hanswered
    · obtain rfl := List.mem_singleton.1 hanswered
      obtain rfl : request = another := Option.some.inj (hcall.symm.trans hlatest.1)
      obtain ⟨rfl, hhonest⟩ := hreply hlatest
      exact hhonest

theorem drop (h : Reading archive replies begun traffic) {entry : Nat × Arrival}
    {rest : List (Nat × Arrival)} (hqueue : traffic.queue = entry :: rest)
    (hcurrent : isCurrent traffic.session entry.2 = false) :
    Reading archive replies begun
      { traffic with session := traffic.session.withInbox (rest.map Prod.snd), queue := rest } where
  coherent := h.coherent.drop hqueue
  keeps := h.keeps.trans ⟨rfl, rfl, rfl⟩
  sent := h.sent
  rounds := h.rounds
  ids := h.ids
  running := h.running
  honest other hother := h.honest other (hqueue ▸ List.mem_cons_of_mem _ hother)
  fresh := h.fresh
  told := h.told
  settled := h.settled
  arrived := by
    intro (hround : traffic.session.round ≠ none) call request hlatest hanswered
    have hmem := h.arrived hround call request hlatest hanswered
    rw [hqueue, List.map_cons, List.mem_append, List.mem_cons] at hmem
    obtain hmem | rfl | hmem := hmem
    · exact List.mem_append_left _ hmem
    · -- what is dropped is of an earlier round
      obtain ⟨round, hrunning⟩ := Option.ne_none_iff_exists'.1 hround
      obtain ⟨hcall, -, -⟩ := h.coherent.head_of_queue hqueue
      have hrequest : entry.2.request = request :=
        Option.some.inj (hcall.symm.trans hlatest.1)
      have hid : entry.2.round = round.id := by
        rw [Arrival.round, hrequest]
        exact hlatest.2.trans (h.running round hrunning).symm
      have hcurrent' := Session.isCurrent_iff.2 ⟨round, hrunning, hid⟩
      exact absurd (hcurrent.symm.trans hcurrent') Bool.false_ne_true
    · exact List.mem_append_right _ hmem
  kept := h.kept
  heard := h.heard

/-- The first reply in the queue is an honest one to the running round, if it is applied. -/
theorem head_of_current (h : Reading archive replies begun traffic) {call : Nat} {arrival : Arrival}
    {rest : List (Nat × Arrival)} (hqueue : traffic.queue = (call, arrival) :: rest)
    (hcurrent : isCurrent traffic.session arrival = true) :
    traffic.Latest call arrival.request ∧ call ∉ traffic.applied ∧
      archive.Honest arrival.request arrival.reply := by
  obtain ⟨hcall, hnew, -⟩ := h.coherent.head_of_queue hqueue
  obtain ⟨running, hrunning, hid⟩ := Session.isCurrent_iff.1 hcurrent
  have hround : arrival.request.round = traffic.session.rounds :=
    hid.trans (h.running running hrunning)
  have hmem : (call, arrival) ∈ traffic.queue := hqueue ▸ List.mem_cons_self
  exact ⟨⟨hcall, hround⟩, hnew, h.honest _ hmem hround⟩

/-- A reply that is applied leaves the sources of other requests alone. -/
theorem status_apply (h : Reading archive replies begun traffic) (hapart : Apart begun) {call : Nat}
    {arrival : Arrival} (hlatest : traffic.Latest call arrival.request)
    (hhonest : archive.Honest arrival.request arrival.reply) {other : Nat} {request : Request}
    (hother : traffic.Latest other request) (hne : other ≠ call) :
    ∀ id ∈ request.sources, (traffic.session.apply arrival).statuses.status id =
      traffic.session.statuses.status id := by
  obtain ⟨ids, hids, hupdates⟩ := hhonest.updates traffic.session.statuses
  rw [← Session.statuses_apply] at hupdates
  have hdisjoint := hapart.disjoint _ _ _ _ (h.latest_iff.1 hother) (h.latest_iff.1 hlatest) hne
  exact fun id hid => hupdates.status_eq fun hmem => hdisjoint hid (hids hmem)

/-- A reply that is applied tells of its own request. -/
theorem told_apply (h : Reading archive replies begun traffic) {call : Nat} {arrival : Arrival}
    (hlatest : traffic.Latest call arrival.request) (hnew : call ∉ traffic.applied)
    (hhonest : archive.Honest arrival.request arrival.reply)
    (hcache : arrival.request.group ≠ .cache) :
    archive.Told arrival.request (traffic.session.apply arrival).statuses := by
  obtain ⟨answer, hreply, hanswers⟩ := hhonest.answers hcache
  rw [Session.statuses_apply, Session.boardAfter, hreply]
  exact Archive.told_of_answers hanswers (h.fresh call arrival.request hlatest hnew)

theorem apply (h : Reading archive replies begun traffic) (hapart : Apart begun) {entry : Nat × Arrival}
    {rest : List (Nat × Arrival)} (hqueue : traffic.queue = entry :: rest)
    (hcurrent : isCurrent traffic.session entry.2 = true) :
    Reading archive replies begun
      { traffic with
        session := (traffic.session.apply entry.2).withInbox (rest.map Prod.snd)
        queue := rest
        applied := traffic.applied ++ [entry.1] } := by
  obtain ⟨call, arrival⟩ := entry
  let next : Traffic :=
    { traffic with
      session := (traffic.session.apply arrival).withInbox (rest.map Prod.snd)
      queue := rest
      applied := traffic.applied ++ [call] }
  change Reading archive replies begun next
  obtain ⟨hlatest, hnew, hhonest⟩ := h.head_of_current hqueue hcurrent
  obtain ⟨running, hrunning, hid⟩ := Session.isCurrent_iff.1 hcurrent
  have hrounds : next.session.rounds = traffic.session.rounds := Session.rounds_apply _ _
  have hearlier : ∀ {other request}, next.Latest other request → traffic.Latest other request :=
    fun hother => ⟨hother.1, hother.2.trans hrounds⟩
  constructor
  case coherent => exact h.coherent.apply hqueue hcurrent
  case keeps =>
    have hinbox : Session.Keeps (traffic.session.apply arrival) next.session := ⟨rfl, rfl, rfl⟩
    exact (h.keeps.trans (Session.keeps_apply _ _)).trans hinbox
  case sent => exact h.sent
  case rounds => exact hrounds.trans h.rounds
  case ids =>
    obtain ⟨ids, hids, hupdates⟩ := hhonest.updates traffic.session.statuses
    rw [← Session.statuses_apply] at hupdates
    have honBoard := hapart.onBoard call _ (h.latest_iff.1 hlatest)
    rw [← h.ids] at honBoard
    exact (hupdates.ids_eq (List.Subset.trans hids honBoard)).trans h.ids
  case running =>
    intro round hround
    obtain ⟨-, rfl⟩ := Session.of_round_apply hrunning hround
    exact (h.running running hrunning).trans hrounds.symm
  case honest =>
    intro entry hentry hround
    exact h.honest entry (hqueue ▸ List.mem_cons_of_mem _ hentry) (hround.trans hrounds)
  case fresh =>
    intro other request hother happlied id hid
    rw [List.mem_append, List.mem_singleton, not_or] at happlied
    rw [← h.fresh other request (hearlier hother) happlied.1 id hid]
    exact h.status_apply hapart hlatest hhonest (hearlier hother) happlied.2 id hid
  case told =>
    intro other request hother (happlied : other ∈ traffic.applied ++ [call]) hcache
    by_cases hself : other = call
    · subst hself
      obtain rfl : arrival.request = request := Option.some.inj (hlatest.1.symm.trans hother.1)
      exact h.told_apply hlatest hnew hhonest hcache
    · have happlied : other ∈ traffic.applied := by simpa [hself] using happlied
      exact (h.told other request (hearlier hother) happlied hcache).congr
        (h.status_apply hapart hlatest hhonest (hearlier hother) hself)
  case settled =>
    intro hround other request hother
    have hlast : running.outstanding ≤ 1 := by
      have hround : (traffic.session.apply arrival).round = none := hround
      rw [Session.round_apply hrunning] at hround
      by_contra hmore
      rw [if_neg hmore] at hround
      cases hround
    refine h.coherent.applied_of_last hqueue hrunning hid hlast other ?_
    have hof : request.round = running.id :=
      (hearlier hother).2.trans (h.running running hrunning).symm
    exact mem_callsOf.2 (isOf_eq_true_iff.2 ⟨request, hother.1, hof⟩)
  case arrived =>
    intro _ other request hother hanswered
    have hround : traffic.session.round ≠ none := by simp [hrunning]
    have hmem := h.arrived hround other request (hearlier hother) hanswered
    rw [hqueue, List.map_cons] at hmem
    change other ∈ traffic.applied ++ [call] ++ rest.map Prod.fst
    rwa [List.append_assoc]
  case kept => exact List.Subset.trans h.kept (List.subset_append_left _ _)
  case heard =>
    intro other request hother hanswered
    exact h.heard other request (hearlier hother) hanswered

end Reading

/-! ## Whole exchanges -/

/-- What is kept by each of the moves that an exchange is made of: a reply comes in, and is
dropped or applied later. -/
structure Persists (archive : Archive) (replies : Nat → Reply) (good : Traffic → Prop) :
    Prop where
  coherent : ∀ {traffic}, good traffic → Coherent traffic
  receive : ∀ {traffic call request reply}, good traffic → traffic.sent[call]? = some request →
    call ∉ traffic.answered →
    (traffic.Latest call request → reply = replies call ∧ archive.Honest request reply) →
    good
      { traffic with
        session := traffic.session.deliver ⟨request, reply⟩
        answered := traffic.answered ++ [call]
        queue := traffic.queue ++ [(call, ⟨request, reply⟩)] }
  drop : ∀ {traffic entry rest}, good traffic → traffic.queue = entry :: rest →
    isCurrent traffic.session entry.2 = false →
    good
      { traffic with session := traffic.session.withInbox (rest.map Prod.snd), queue := rest }
  apply : ∀ {traffic entry rest}, good traffic → traffic.queue = entry :: rest →
    isCurrent traffic.session entry.2 = true →
    good
      { traffic with
        session := (traffic.session.apply entry.2).withInbox (rest.map Prod.snd)
        queue := rest
        applied := traffic.applied ++ [entry.1] }

namespace Persists

variable {archive : Archive} {replies : Nat → Reply} {good : Traffic → Prop} {traffic : Traffic}

/-- Any sequence of replies that are pulled, dropped or applied one by one. -/
theorem pulled (hgood : Persists archive replies good) {session after : Session}
    {queue rest : List (Nat × Arrival)} {calls : List Nat}
    (hpulled : Session.Pulled session queue after rest calls)
    {sent : List Request} {answered applied : List Nat}
    (h : good (ofQueue session sent answered queue applied)) :
    good (ofQueue after sent answered rest (applied ++ calls)) := by
  induction hpulled generalizing applied with
  | stop session queue => rwa [List.append_nil]
  | drop hcurrent _ ih => exact ih (hgood.drop h rfl hcurrent)
  | @apply session after entry queue rest calls hcurrent _ ih =>
    have hnext := hgood.apply h rfl hcurrent
    have hsession := Session.withInbox_apply session entry.2 ((entry :: queue).map Prod.snd)
    change good ⟨((session.withInbox _).apply entry.2).withInbox _, _, _, _, _⟩ at hnext
    rw [hsession] at hnext
    have hrest := ih hnext
    rwa [List.append_assoc, List.singleton_append] at hrest

theorem operate (hgood : Persists archive replies good) (h : good traffic)
    {operation : Operation} (hpulls : operation.pulls = true) :
    good (traffic.operate operation) := by
  have hinStep := (hgood.coherent h).inStep
  obtain ⟨front, rest, after, hpull, happlies, hoperate⟩ := operate_of_pulls hinStep hpulls
  have hself := eq_ofQueue hinStep
  rw [hoperate, happlies]
  exact hgood.pulled hpull.pulled (hself ▸ h)

theorem answer (hgood : Persists archive replies good) (h : good traffic) {call : Nat}
    {reply : Reply}
    (hreply : ∀ request, traffic.Latest call request →
      reply = replies call ∧ archive.Honest request reply) :
    good (traffic.answer call reply) := by
  rw [Traffic.answer]
  split
  · exact h
  · rename_i request hcall
    split
    · exact h
    · rename_i hnew
      exact hgood.receive h hcall hnew (hreply request)

/-- Whatever comes in and is pulled. -/
theorem exchanges (hgood : Persists archive replies good) {after : Traffic}
    (hexchanges : Exchanges archive replies traffic after) (h : good traffic) : good after := by
  induction hexchanges with
  | refl => exact h
  | answer call reply hreply _ ih => exact ih (hgood.answer h hreply)
  | pull operation hpulls _ ih => exact ih (hgood.operate h hpulls)

end Persists

namespace Reading

variable {archive : Archive} {replies : Nat → Reply} {begun traffic : Traffic}

theorem persists (hapart : Apart begun) :
    Persists archive replies (Reading archive replies begun) where
  coherent := coherent
  receive h := h.receive
  drop h := h.drop
  apply h := h.apply hapart

theorem operate (h : Reading archive replies begun traffic) (hapart : Apart begun)
    {operation : Operation} (hpulls : operation.pulls = true) :
    Reading archive replies begun (traffic.operate operation) :=
  (persists hapart).operate h hpulls

theorem exchanges (hapart : Apart begun) {after : Traffic}
    (hexchanges : Exchanges archive replies traffic after)
    (h : Reading archive replies begun traffic) :
    Reading archive replies begun after :=
  (persists hapart).exchanges hexchanges h

end Reading

/-! ## Settling -/

theorem Exchanges.trans {archive : Archive} {replies : Nat → Reply}
    {traffic between after : Traffic} (h : Exchanges archive replies traffic between)
    (hrest : Exchanges archive replies between after) :
    Exchanges archive replies traffic after := by
  induction h with
  | refl => exact hrest
  | answer call reply hreply _ ih => exact .answer call reply hreply (ih hrest)
  | pull operation hpulls _ ih => exact .pull operation hpulls (ih hrest)

/-- A reply adds its request to those that were answered, and sends nothing. -/
theorem frame_answer (traffic : Traffic) (call : Nat) (reply : Reply) :
    (traffic.answer call reply).sent = traffic.sent ∧
      (traffic.answer call reply).session.rounds = traffic.session.rounds ∧
      traffic.answered ⊆ (traffic.answer call reply).answered ∧
      (call < traffic.sent.length → call ∈ (traffic.answer call reply).answered) := by
  unfold answer
  split
  · rename_i hnone
    refine ⟨rfl, rfl, fun _ => id, fun hlt => ?_⟩
    rw [List.getElem?_eq_getElem hlt] at hnone
    cases hnone
  · split
    · rename_i hanswered
      exact ⟨rfl, rfl, fun _ => id, fun _ => hanswered⟩
    · exact ⟨rfl, rfl, List.subset_append_left _ _, fun _ => by simp⟩

/-- All of some requests can be answered. -/
theorem exists_answered {archive : Archive} {replies : Nat → Reply} (calls : List Nat)
    {traffic : Traffic}
    (hhonest : ∀ call request, traffic.Latest call request →
      archive.Honest request (replies call)) :
    ∃ after, Exchanges archive replies traffic after ∧ traffic.answered ⊆ after.answered ∧
      ∀ call ∈ calls, call < traffic.sent.length → call ∈ after.answered := by
  induction calls generalizing traffic with
  | nil => exact ⟨traffic, .refl traffic, fun _ => id, nofun⟩
  | cons call calls ih =>
    obtain ⟨hsent, hrounds, hkept, hanswered⟩ := frame_answer traffic call (replies call)
    have hhonest' : ∀ other request, (traffic.answer call (replies call)).Latest other request →
        archive.Honest request (replies other) := by
      intro other request hlatest
      rw [Latest, hsent, hrounds] at hlatest
      exact hhonest other request hlatest
    obtain ⟨after, hexchanges, hkept', hall⟩ := ih hhonest'
    rw [hsent] at hall
    have hreply : ∀ request, traffic.Latest call request →
        replies call = replies call ∧ archive.Honest request (replies call) :=
      fun request hlatest => ⟨rfl, hhonest call request hlatest⟩
    refine ⟨after, .answer call (replies call) hreply hexchanges,
      List.Subset.trans hkept hkept', fun other hother hlt => ?_⟩
    obtain rfl | hother := List.mem_cons.1 hother
    · exact hkept' (hanswered hlt)
    · exact hall other hother hlt

namespace Reading

variable {archive : Archive} {replies : Nat → Reply} {begun traffic : Traffic}

/-- A round all of whose requests were answered is over once the inbox is empty. -/
theorem over_of_drained (h : Reading archive replies begun traffic) (hqueue : traffic.queue = [])
    (hanswered : ∀ call request, traffic.Latest call request → call ∈ traffic.answered) :
    traffic.session.round = none := by
  by_contra hround
  obtain ⟨running, hrunning⟩ := Option.ne_none_iff_exists'.1 hround
  obtain ⟨hpositive, hcount⟩ := h.coherent.counted running hrunning
  have happlied : ∀ call ∈ callsOf traffic.sent running.id, call ∈ traffic.applied := by
    intro call hcall
    obtain ⟨request, hcall, hof⟩ := isOf_eq_true_iff.1 (mem_callsOf.1 hcall)
    have hlatest : traffic.Latest call request := ⟨hcall, hof.trans (h.running running hrunning)⟩
    have harrived := h.arrived hround call request hlatest (hanswered call request hlatest)
    rwa [hqueue, List.map_nil, List.append_nil] at harrived
  have hlength := (h.coherent.length_appliedOf_eq_iff running.id).2 happlied
  omega

/-- A round all of whose requests were answered settles when it is polled. -/
theorem settles_of_answered (h : Reading archive replies begun traffic) (hapart : Apart begun)
    (hanswered : ∀ call request, traffic.Latest call request → call ∈ traffic.answered) :
    (traffic.operate .poll).session.round = none := by
  have hpolled : Reading archive replies begun (traffic.operate .poll) := h.operate hapart rfl
  obtain hover | hinbox := Session.applyAll_over_or_nil traffic.session traffic.session.inbox
  · exact hover
  · apply hpolled.over_of_drained
    · exact List.map_eq_nil_iff.1 (hpolled.coherent.inStep.symm.trans hinbox)
    · intro call request hlatest
      exact hanswered call request (h.latest_iff.2 (hpolled.latest_iff.1 hlatest))

/-- From honest replies a round settles. -/
theorem exists_settled (h : Reading archive replies begun traffic) (hapart : Apart begun)
    (hhonest : ∀ call request, traffic.Latest call request →
      archive.Honest request (replies call)) :
    ∃ after, Exchanges archive replies traffic after ∧ after.session.round = none := by
  obtain ⟨answered, hexchanges, -, hall⟩ :=
    exists_answered (List.range traffic.sent.length) hhonest
  have hanswered := exchanges hapart hexchanges h
  refine ⟨answered.operate .poll,
    hexchanges.trans (.pull .poll rfl (.refl _)), hanswered.settles_of_answered hapart ?_⟩
  intro call request hlatest
  obtain ⟨hcall, -⟩ := h.latest_iff.2 (hanswered.latest_iff.1 hlatest)
  have hlt : call < traffic.sent.length := (List.getElem?_eq_some_iff.1 hcall).1
  exact hall call (List.mem_range.2 hlt) hlt

end Reading

end Traffic

end CatalogSearch
