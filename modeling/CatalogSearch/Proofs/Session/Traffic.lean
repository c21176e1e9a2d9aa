import CatalogSearch.Proofs.Session.Operation

/-!
# The traffic of a session

A session together with every request that it has sent.  A request is answered once
at most, at any time, also long after its round was given up; until then it is on
its way.  The traffic numbers requests in the order in which they were sent and
keeps, beside the inbox, the numbers of what lies in it, and the numbers of the
requests whose replies were applied.
-/

namespace CatalogSearch

structure Traffic where
  session : Session
  /-- Every request so far, in the order of sending. -/
  sent : List Request
  /-- The numbers of the requests that were answered. -/
  answered : List Nat
  /-- The inbox of the session, with the numbers of the requests. -/
  queue : List (Nat × Arrival)
  /-- The numbers of the requests whose replies were applied, in the order of applying. -/
  applied : List Nat

/-- What can happen: the owner does something, or a request is answered. -/
inductive Action
  | operate (operation : Operation)
  | answer (call : Nat) (reply : Reply)

namespace Traffic

/-- The traffic of a session that has not sent anything. -/
def create (session : Session) : Traffic := ⟨session, [], [], [], []⟩

/-- Whether an arrival belongs to the running round. -/
def isCurrent (session : Session) (arrival : Arrival) : Bool :=
  match session.round with
  | some round => arrival.round == round.id
  | none => false

/-- What an operation takes out of the inbox. -/
def taken (traffic : Traffic) (operation : Operation) : List (Nat × Arrival) :=
  traffic.queue.take
    (traffic.session.inbox.length - (operation.run traffic.session).1.inbox.length)

/-- The numbers of the requests whose replies an operation applies. -/
def applies (traffic : Traffic) (operation : Operation) : List Nat :=
  if operation.pulls then
    ((traffic.taken operation).filter fun entry => isCurrent traffic.session entry.2).map Prod.fst
  else []

def operate (traffic : Traffic) (operation : Operation) : Traffic :=
  { session := (operation.run traffic.session).1
    sent := traffic.sent ++ (operation.run traffic.session).2
    answered := traffic.answered
    queue := traffic.queue.drop (traffic.taken operation).length
    applied := traffic.applied ++ traffic.applies operation }

/-- A reply to a request that was sent and has not been answered. -/
def answer (traffic : Traffic) (call : Nat) (reply : Reply) : Traffic :=
  match traffic.sent[call]? with
  | none => traffic
  | some request =>
    if call ∈ traffic.answered then traffic
    else
      { traffic with
        session := traffic.session.deliver ⟨request, reply⟩
        answered := traffic.answered ++ [call]
        queue := traffic.queue ++ [(call, ⟨request, reply⟩)] }

def act (traffic : Traffic) : Action → Traffic
  | .operate operation => traffic.operate operation
  | .answer call reply => traffic.answer call reply

def run (traffic : Traffic) (actions : List Action) : Traffic := actions.foldl act traffic

/-- What happens, unless an operation gives up.  One that does not comes to the same as in words
that wrap around. -/
def act? (traffic : Traffic) : Action → Option Traffic
  | .operate operation =>
    (operation.run? traffic.session).map fun _ => traffic.operate operation
  | .answer call reply => some (traffic.answer call reply)

def run? (traffic : Traffic) (actions : List Action) : Option Traffic :=
  actions.foldlM act? traffic

end Traffic

end CatalogSearch
