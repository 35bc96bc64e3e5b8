import JobGrid.Proofs.Grid.Kept
import JobGrid.Proofs.Grid.Peers
import JobGrid.Proofs.Node.Homes

/-!
# Where pending jobs are noted in a grid

Anything can happen to a node and to the cluster around it, in any order: other nodes join,
leave, fail and send whatever they like, and the node takes its turns, also while submissions
still place their jobs. Every pending job of the node is noted on a current member, or on a node
whose departure the node has yet to deal with.
-/

namespace JobGrid

/-- A node in a cluster, at a moment. -/
structure Site where
  now : Moment
  node : Node
  cluster : Cluster
  /-- How far the node has dealt with the log. This stays behind its position once a rule broke
  while the node dealt with a change; it reads no more changes then. -/
  handled : Nat

/-- What can happen to a node and to the cluster around it. -/
inductive SiteEvent where
  /-- Something happens besides the turns of the node; others come and go. -/
  | peer (act : PeerAct)
  | turn (act : NodeTurn)
  /-- A task is submitted. Other things may happen before its jobs are placed. -/
  | accept (session : SessionId) (jobs : List JobSpec) (placement : Placement)
  /-- A submission that was interrupted places a job. Any job may be placed at any time. -/
  | place (transfer : JobTransfer) (target : NodeId)
  /-- A submission that was interrupted ends. -/
  | conclude (session : SessionId) (count : Nat)
  | wait (now : Moment)

namespace Site

/-- The turn of the node at the moment. -/
def turn (site : Site) : Turn := { now := site.now, node := site.node, cluster := site.cluster }

/-- What a turn leaves behind. -/
def after (site : Site) (turn : Turn) : Site :=
  { site with node := turn.node, cluster := turn.cluster }

/-- Lets something happen. -/
def step? (site : Site) : SiteEvent → Option Site
  | .peer act =>
      if act.moved? = some site.node.id then none
      else some { site with cluster := act.apply site.cluster }
  | .turn .observe =>
      if site.handled = site.node.position then
        (NodeTurn.observe.take? site.turn).map fun turn =>
          { site.after turn with
            handled := if turn.fault?.isSome then site.handled else turn.node.position }
      else none
  | .turn act => (act.take? site.turn).map site.after
  | .accept session jobs placement =>
      some (site.after (site.turn.accept session jobs placement).2)
  | .place transfer target => some (site.after (site.turn.place transfer target))
  | .conclude session count => some (site.after (site.turn.conclude session count))
  | .wait now => some { site with now }

/-- Lets some things happen, one after another. -/
def steps? : Site → List SiteEvent → Option Site
  | site, [] => some site
  | site, event :: later => (site.step? event).bind fun next => next.steps? later

/-- The node has just become a member and follows no task. -/
structure Fresh (site : Site) : Prop where
  joined : (site.cluster.find? site.node.id).isSome = true
  listed : site.cluster.Listed
  read : site.handled ≤ site.cluster.events.size
  tasks : site.node.tasks = ∅

/-- A node that joins is a member that follows no task, whatever happened in the grid before. -/
theorem fresh_of_join {config : NodeConfig} {identity : NodeIdentity} {now : Moment}
    {capacity : Nat} {earlier : List PeerAct} {node : Node} {cluster : Cluster}
    (joined : Node.join config identity now (earlier.foldl PeerAct.apply (.empty capacity)) =
      .ok (node, cluster)) :
    Fresh { now, node, cluster, handled := node.position } := by
  obtain ⟨rfl, new⟩ := Node.new_of_join joined
  have evolves := Cluster.Evolves.join (earlier.foldl PeerAct.apply (.empty capacity))
    (Node.publishedMember config identity)
  refine ⟨?_, evolves.listed (Cluster.listed_foldl capacity earlier), ?_, new.tasks⟩
  · rw [Cluster.isSome_find?_join]
    exact .inl new.id
  · exact new.position ▸ evolves.size_le

end Site

namespace Turn

/-- What holds of a node and of the cluster around it when the node has dealt with the log up to
some place. -/
structure Sound (handled : Nat) (turn : Turn) : Prop where
  joined : (turn.cluster.find? turn.node.id).isSome = true
  listed : turn.cluster.Listed
  read : handled ≤ turn.cluster.events.size
  noted : ∀ {session job placed}, Awaiting turn.node.tasks session job placed →
    placed.transfer.session = session ∧ placed.transfer.spec.id = job ∧
      turn.cluster.Knows handled placed.node

variable {watched : SessionId → Prop} {brought : Option JobTransfer} {handled : Nat}
  {turn next : Turn}

theorem Steady.evolves (steady : Steady turn next) :
    Cluster.Evolves none turn.cluster next.cluster where
  events := steady.events
  listed listed node known := by
    rw [steady.members]
    exact listed node (steady.inboxes ▸ known)
  gone present := .inl (by rwa [steady.members])

namespace Sound

/-- The members and the receivers of messages are known, and so are the nodes of pending jobs. -/
theorem homed (sound : turn.Sound handled) : turn.Homed (turn.cluster.Knows handled) [] where
  own := .inl sound.joined
  listed known := .inl (sound.listed _ known)
  present := .inl
  noted waits := by
    obtain ⟨own, named, known⟩ := sound.noted waits
    exact ⟨own, named, .inl known⟩

/-- Only what the node noted in the meantime has to be looked at. -/
theorem of_evolves {moved : Option NodeId}
    (evolves : Cluster.Evolves moved turn.cluster next.cluster)
    (stays : moved ≠ some turn.node.id) (id : next.node.id = turn.node.id)
    (joined : (turn.cluster.find? turn.node.id).isSome = true) (listed : turn.cluster.Listed)
    (read : handled ≤ turn.cluster.events.size)
    (noted : ∀ {session job placed}, Awaiting next.node.tasks session job placed →
      placed.transfer.session = session ∧ placed.transfer.spec.id = job ∧
        turn.cluster.Knows handled placed.node) : next.Sound handled where
  joined := by
    rw [id]
    exact (evolves.gone joined).resolve_right fun departed => stays departed.1
  listed := evolves.listed listed
  read := Nat.le_trans read evolves.size_le
  noted waits := by
    obtain ⟨own, named, known⟩ := noted waits
    exact ⟨own, named, evolves.knows read known⟩

/-- Something happens besides the turns of the node. -/
theorem peer (sound : turn.Sound handled) {act : PeerAct}
    (stays : act.moved? ≠ some turn.node.id) :
    ({ turn with cluster := act.apply turn.cluster } : Turn).Sound handled :=
  of_evolves (.apply turn.cluster act) stays rfl sound.joined sound.listed sound.read sound.noted

theorem of_homed {position : Nat} (sound : turn.Sound handled) (steady : Steady turn next)
    (read : position ≤ turn.cluster.events.size)
    (homed : next.Homed (turn.cluster.Knows position) []) : next.Sound position := by
  refine of_evolves steady.evolves (by simp) steady.id sound.joined sound.listed read ?_
  intro session job placed waits
  obtain ⟨own, named, known | none⟩ := homed.noted waits
  · exact ⟨own, named, known⟩
  · cases none

theorem leads (sound : turn.Sound handled) (leads : Leads watched brought turn next) :
    next.Sound handled :=
  sound.of_homed leads.steady sound.read (sound.homed.leads leads)

/-- The node takes a turn in which no job is brought to it. -/
theorem unaided (sound : turn.Sound handled) (leads : Leads (fun _ => False) none turn next) :
    next.Sound handled :=
  sound.leads leads

/-- The jobs that are placed again after a change in the grid are those on the departed node. -/
theorem homed_of_departure {event : DiscoveryEvent} {fits : NodeId → Prop}
    (sound : turn.Sound handled)
    (present : ∀ {node}, (turn.cluster.find? node).isSome = true → fits node)
    (noted : ∀ {session job placed}, Awaiting turn.node.tasks session job placed →
      fits placed.node ∨ event.Departs placed.node) :
    turn.Homed fits (turn.lostBy event) where
  own := present sound.joined
  listed known := present (sound.listed _ known)
  present := present
  noted {session job placed} waits := by
    obtain ⟨own, named, -⟩ := sound.noted waits
    refine ⟨own, named, ?_⟩
    rcases noted waits with fit | departs
    · exact .inl fit
    · by_cases self : placed.node = turn.node.id
      · exact .inl (self ▸ present sound.joined)
      · rw [lostBy, if_pos ⟨departs.1, departs.2 ▸ self⟩]
        have arranged := turn.node.chance.lost.perm (turn.jobsOn event.member.id)
        exact .inr (arranged.symm.subset
          (mem_jobsOn.2 ⟨session, job, placed, waits, departs.2.symm, rfl⟩))

/-- The node deals with a change in the grid. Unless a rule breaks, no pending job stays noted on
a node that departed and is no member. -/
theorem onEvent {event : DiscoveryEvent} (sound : turn.Sound handled)
    (found : turn.cluster.events[handled]? = some event) :
    (turn.onEvent event).Sound
        (if (turn.onEvent event).fault?.isSome then handled else handled + 1) ∧
      ∀ gone, event.Departs gone → turn.cluster.find? gone = none →
        (turn.onEvent event).fault?.isSome = true ∨ ∀ session job placed,
          Awaiting (turn.onEvent event).node.tasks session job placed → placed.node ≠ gone := by
  have leads : Leads (fun _ => False) none turn (turn.onEvent event) := leads_onEvent turn event
  refine ⟨?_, ?_⟩
  -- If a rule broke, jobs may still be noted on the departed node, and it is not dealt with yet.
  · split
    · exact sound.leads leads
    · rename_i unbroken
      have behind : turn.Homed (turn.cluster.Knows (handled + 1)) (turn.lostBy event) := by
        refine sound.homed_of_departure .inl ?_
        intro session job placed waits
        obtain ⟨-, -, present | told⟩ := sound.noted waits
        · exact .inl (.inl present)
        · exact (Cluster.tells_succ found told).imp_left .inr
      obtain ⟨bound, -⟩ := Array.getElem?_eq_some_iff.1 found
      exact sound.of_homed leads.steady bound (behind.onEvent.resolve_left unbroken)
  · intro gone departs absent
    -- Whatever differs from the departed node fits here, whether it is still known or not.
    have elsewhere : turn.Homed (· ≠ gone) (turn.lostBy event) := by
      refine sound.homed_of_departure ?_ ?_
      · rintro node present rfl
        rw [absent] at present
        cases present
      · intro session job placed waits
        by_cases there : placed.node = gone
        · exact .inr (there ▸ departs)
        · exact .inl there
    refine elsewhere.onEvent.imp_right fun homed session job placed waits => ?_
    obtain ⟨-, -, differs | none⟩ := homed.noted waits
    · exact differs
    · cases none

/-- The node reads the next change in the grid, if there is one, and deals with it. -/
theorem readEvent (sound : turn.Sound turn.node.position)
    (current : turn.cluster.resume turn.node.position = turn.node.position) :
    let done := turn.readEvent.2
    done.Sound (if done.fault?.isSome then turn.node.position else done.node.position) ∧
      ∀ event gone, turn.cluster.events[turn.node.position]? = some event →
        event.Departs gone → turn.cluster.find? gone = none →
          done.node.position = turn.node.position + 1 ∧ (done.fault?.isSome = false →
            ∀ session job placed, Awaiting done.node.tasks session job placed →
              placed.node ≠ gone) := by
  simp only [Turn.readEvent, current]
  cases found : turn.cluster.events[turn.node.position]? with
  | none =>
      refine ⟨by rwa [ite_self], ?_⟩
      intro event gone there
      cases there
  | some event =>
      let read : Turn := turn.update fun node => { node with position := turn.node.position + 1 }
      have begun : read.Sound turn.node.position :=
        ⟨sound.joined, sound.listed, sound.read, sound.noted⟩
      have leads : Leads (fun _ => False) none read (read.onEvent event) :=
        leads_onEvent read event
      have position : (read.onEvent event).node.position = turn.node.position + 1 :=
        leads.steady.position
      obtain ⟨dealt, left⟩ := begun.onEvent found
      refine ⟨by rwa [← position] at dealt, ?_⟩
      intro other gone there departs absent
      cases there
      refine ⟨position, fun unbroken => ?_⟩
      exact (left gone departs absent).resolve_left (by rw [unbroken]; decide)

/-- Of what a turn did, only the node and the cluster matter. -/
theorem after (sound : turn.Sound handled) (site : Site) : (site.after turn).turn.Sound handled :=
  ⟨sound.joined, sound.listed, sound.read, sound.noted⟩

theorem readMessage (sound : turn.Sound handled) : turn.readMessage.2.Sound handled := by
  simp only [Turn.readMessage]
  split
  · exact sound
  · rename_i envelope cluster received
    have same : turn.cluster.SameMembers cluster := Cluster.sameMembers_of_receive received
    have taken : ({ turn with cluster } : Turn).Sound handled :=
      of_evolves (.of_sameMembers same : Cluster.Evolves none _ _) (by simp) rfl sound.joined
        sound.listed sound.read sound.noted
    let brought := NodeEvent.brought? ⟨turn.now, cluster, .message envelope⟩
    have leads : Leads (fun _ => False) brought { turn with cluster }
        (({ turn with cluster } : Turn).onMessage envelope) := by
      apply leads_onMessage
      intro transfer reads
      simp only [brought, NodeEvent.brought?, reads]
    exact taken.leads leads

/-- Every turn but reading a change in the grid leaves the log where it is. -/
theorem take {act : NodeTurn} (sound : turn.Sound handled) (other : act ≠ .observe)
    (took : act.take? turn = some next) : next.Sound handled := by
  cases act with
  | submit session jobs placement =>
      cases took
      exact sound.unaided (leads_submit turn id jobs placement)
  | receive =>
      cases took
      exact sound.readMessage
  | observe => exact absurd rfl other
  | look =>
      cases took
      exact sound.unaided (leads_collide turn)
  | complete execution =>
      obtain ⟨-, rfl⟩ := NodeTurn.take?_complete_eq_some.1 took
      exact sound.unaided (leads_complete turn execution)
  | publish =>
      cases took
      exact sound.unaided (leads_publishMetrics turn)
  | restrict session nodes =>
      cases took
      exact ⟨sound.joined, sound.listed, sound.read, sound.noted⟩
  | reroll chance =>
      cases took
      exact ⟨sound.joined, sound.listed, sound.read, sound.noted⟩

end Sound

end Turn

namespace Site

variable {site start next : Site}

/-- The node reads the next change in the grid, if there is one, and deals with it. -/
theorem sound_observe (sound : site.turn.Sound site.handled)
    (happened : site.step? (.turn .observe) = some next) :
    next.turn.Sound next.handled ∧ ∀ event gone,
      site.cluster.events[site.node.position]? = some event → event.Departs gone →
        site.cluster.find? gone = none → next.handled = next.node.position →
          ∀ session job placed, Awaiting next.node.tasks session job placed →
            placed.node ≠ gone := by
  simp only [step?] at happened
  split at happened
  · rename_i level
    obtain ⟨done, took, rfl⟩ := Option.map_eq_some_iff.1 happened
    obtain ⟨current, rfl⟩ := NodeTurn.take?_observe_eq_some.1 took
    rw [level] at sound ⊢
    obtain ⟨dealt, left⟩ := Turn.Sound.readEvent sound current
    refine ⟨dealt.after _, ?_⟩
    intro event gone found departs absent handled
    obtain ⟨read, rid⟩ := left event gone found departs absent
    apply rid
    cases broke : site.turn.readEvent.2.fault?.isSome with
    | false => rfl
    | true =>
        simp only [broke, if_true] at handled
        exact absurd (handled.trans read) (Nat.ne_of_lt (Nat.lt_succ_self _))
  · cases happened

/-- Whatever happens, pending jobs stay noted on nodes that are known. -/
theorem sound_step {event : SiteEvent} (sound : site.turn.Sound site.handled)
    (happened : site.step? event = some next) : next.turn.Sound next.handled := by
  cases event with
  | peer act =>
      simp only [step?] at happened
      split at happened
      · cases happened
      · rename_i stays
        cases happened
        exact sound.peer stays
  | accept session jobs placement =>
      cases happened
      exact (sound.unaided (Turn.leads_accept site.turn id jobs placement)).after site
  | place transfer target =>
      cases happened
      exact (sound.unaided (Turn.leads_place site.turn transfer target False.elim)).after site
  | conclude session count =>
      cases happened
      exact (sound.unaided (Turn.leads_conclude site.turn session count)).after site
  | wait now =>
      cases happened
      exact ⟨sound.joined, sound.listed, sound.read, sound.noted⟩
  | turn act =>
      by_cases observes : act = .observe
      · subst observes
        exact (sound_observe sound happened).1
      · rw [step?] at happened
        · obtain ⟨done, took, rfl⟩ := Option.map_eq_some_iff.1 happened
          exact (sound.take observes took).after site
        · exact observes

theorem sound_steps {history : List SiteEvent} (sound : start.turn.Sound start.handled)
    (happened : start.steps? history = some site) : site.turn.Sound site.handled := by
  induction history generalizing start with
  | nil =>
      cases happened
      exact sound
  | cons event later ih =>
      obtain ⟨next, first, rest⟩ := Option.bind_eq_some_iff.1 happened
      exact ih (sound_step sound first) rest

theorem Fresh.sound (fresh : start.Fresh) : start.turn.Sound start.handled where
  joined := fresh.joined
  listed := fresh.listed
  read := fresh.read
  noted waits := by
    obtain ⟨task, found, -⟩ := waits
    rw [show start.turn.node.tasks = start.node.tasks from rfl, fresh.tasks] at found
    cases found

/-- Whatever happens to a node and to the cluster around it, each pending job is noted on a current
member, or on a node whose departure is in the log and has not been dealt with yet. When the node
has dealt with the departure of a node that is no member, no pending job is noted there. -/
theorem noted_at_known {history : List SiteEvent} (fresh : start.Fresh)
    (happened : start.steps? history = some site) :
    (∀ session job placed, Awaiting site.node.tasks session job placed →
      (site.cluster.find? placed.node).isSome = true ∨
        site.cluster.Tells site.handled placed.node) ∧
    ∀ event gone next, site.cluster.events[site.node.position]? = some event →
      event.Departs gone → site.cluster.find? gone = none →
        site.step? (.turn .observe) = some next → next.handled = next.node.position →
          ∀ session job placed, Awaiting next.node.tasks session job placed →
            placed.node ≠ gone := by
  have sound := sound_steps fresh.sound happened
  refine ⟨fun session job placed waits => (sound.noted waits).2.2, ?_⟩
  intro event gone next found departs absent observed done
  exact (sound_observe sound observed).2 event gone found departs absent done

/-- The only other member takes the job of a task and departs. The job is noted there until the node
deals with the departure and keeps the job for itself. -/
theorem noted_at_known_of_departure :
    let session : SessionId := .ofNat 5
    let job : JobSpec := { id := .ofNat 7, affinityKey := some "k" }
    let places : List Place := [⟨5, .ofNat 1⟩, ⟨7, .ofNat 0⟩]
    let ring : Ring := { seed := [], digest := fun _ => some 3, places }
    let node : Node := {
      id := .ofNat 0
      config := {}
      chance := {}
      queue := { capacity := 9 }
      resolver := { config := {} }
      balancer := .affinity { config := {}, ring }
      tracker := { started := 0, cpus := 1 }
      inbox := 0
      position := 0 }
    let cluster : Cluster := {
      capacity := 9
      members := [{ id := .ofNat 0 }, { id := .ofNat 1 }]
      inboxes := ⟨[(.ofNat 0, 0), (.ofNat 1, 1)], by decide⟩
      mailboxes := #[{}, {}] }
    let start : Site := { now := 0, node, cluster, handled := 0 }
    let history : List SiteEvent :=
      [.turn (.submit session [job] .balanced), .peer (.leave (.ofNat 1))]
    let home (site : Site) : Option NodeId := do
      let task ← site.node.tasks.get? session
      let placed ← task.pending.get? job.id
      return placed.node
    start.Fresh ∧ ∃ site next event, start.steps? history = some site ∧
      site.cluster.events[site.node.position]? = some event ∧ event.Departs (.ofNat 1) ∧
      site.cluster.find? (.ofNat 1) = none ∧ site.step? (.turn .observe) = some next ∧
      next.handled = next.node.position ∧ home site = some (.ofNat 1) ∧ home next = some node.id ∧
      (∀ session job placed, Awaiting site.node.tasks session job placed →
        (site.cluster.find? placed.node).isSome = true ∨
          site.cluster.Tells site.handled placed.node) ∧
      ∀ session job placed, Awaiting next.node.tasks session job placed →
        placed.node ≠ .ofNat 1 := by
  intro session job places ring node cluster start history home
  have listed : cluster.Listed := by
    intro other known
    have all : ∀ one ∈ cluster.inboxes.keys, (cluster.find? one).isSome = true := by
      decide +kernel
    exact all other (Table.contains_iff_mem_keys.1 known)
  have fresh : start.Fresh := ⟨by decide +kernel, listed, by decide +kernel, rfl⟩
  let site := (start.steps? history).get (by decide +kernel)
  let next := (site.step? (.turn .observe)).get (by decide +kernel)
  have reached : start.steps? history = some site := (Option.some_get _).symm
  have observed : site.step? (.turn .observe) = some next := (Option.some_get _).symm
  have change : (site.cluster.events[site.node.position]?.map fun event =>
      (event.kind, event.member.id)) = some (.left, .ofNat 1) := by decide +kernel
  obtain ⟨event, found, change⟩ := Option.map_eq_some_iff.1 change
  simp only [Prod.mk.injEq] at change
  have departs : event.Departs (.ofNat 1) := ⟨by rw [change.1]; rfl, change.2⟩
  have absent : site.cluster.find? (.ofNat 1) = none :=
    Option.isNone_iff_eq_none.1 (by decide +kernel)
  have dealt : next.handled = next.node.position := by decide +kernel
  obtain ⟨known, left⟩ := noted_at_known fresh reached
  exact ⟨fresh, site, next, event, reached, found, departs, absent, observed, dealt,
    by decide +kernel, by decide +kernel, known,
    left event (.ofNat 1) next found departs absent observed dealt⟩

end Site

end JobGrid
