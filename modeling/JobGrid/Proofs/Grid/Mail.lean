import JobGrid.Cluster
import JobGrid.Proofs.Job.Wire

/-!
# Messages in inboxes

The messages of an inbox are what its letters say. Sending, receiving and closing change the
messages of one inbox and leave all others alone.
-/

namespace JobGrid

/-- Who submitted a job, and under which session. -/
abbrev Owners := JobId → Option (NodeId × SessionId)

/-- The job is sent under the session and the origin that it was submitted under. -/
def JobTransfer.Genuine (owner : Owners) (transfer : JobTransfer) : Prop :=
  owner transfer.spec.id = some (transfer.origin, transfer.session)

namespace Message

/-- The job that a message brings. -/
def brought? : Message → Option JobId
  | jobSubmit transfer => some transfer.spec.id
  | _ => none

/-- The job that a message is an answer for. -/
def answered? : Message → Option JobId
  | jobRejected rejected => some rejected.job.spec.id
  | jobResult result => some result.job
  | _ => none

/-- A message to a node tells the truth about its job. Answers go to the origin. -/
def Genuine (owner : Owners) (receiver : NodeId) : Message → Prop
  | stealRequest _ => True
  | jobSubmit transfer => transfer.Genuine owner
  | jobRejected rejected => rejected.job.Genuine owner ∧ rejected.job.origin = receiver
  | jobResult result => owner result.job = some (receiver, result.session)

/-- An answer comes to the origin of its job. -/
theorem Genuine.home {owner : Owners} {receiver : NodeId} {message : Message} {job : JobId}
    (genuine : message.Genuine owner receiver) (answered : message.answered? = some job) :
    (owner job).map Prod.fst = some receiver := by
  cases message with
  | stealRequest _ => cases answered
  | jobSubmit _ => cases answered
  | jobRejected rejected =>
      cases answered
      obtain ⟨known, rfl⟩ := genuine
      rw [known]
      rfl
  | jobResult result =>
      cases answered
      rw [genuine]
      rfl

theorem brought?_of_answered? {message : Message} {job : JobId}
    (answered : message.answered? = some job) : message.brought? = none := by
  cases message with
  | stealRequest _ => rfl
  | jobSubmit _ => cases answered
  | jobRejected _ => rfl
  | jobResult _ => rfl

end Message

/-- What a letter says, if it can be understood. -/
def Envelope.message? (letter : Envelope) : Option Message :=
  (Message.decode letter.topic letter.payload).toOption

theorem Envelope.message?_encode {message : Message} (readable : message.Readable)
    (sender : NodeId) :
    Envelope.message? ⟨sender, message.topic, message.encode⟩ = some message := by
  rw [message?, Message.decode_encode readable]
  rfl

namespace Cluster

/-- The messages in an inbox that can be understood. -/
def messages (cluster : Cluster) (ref : MailboxRef) : List Message :=
  (cluster.mailbox ref).letters.filterMap Envelope.message?

/-- Between two moments, nothing changed but what is in the inboxes. -/
structure SameMembers (before after : Cluster) : Prop where
  members : after.members = before.members
  inboxes : after.inboxes = before.inboxes
  events : after.events = before.events
  size : after.mailboxes.size = before.mailboxes.size

namespace SameMembers

protected theorem refl (cluster : Cluster) : SameMembers cluster cluster := ⟨rfl, rfl, rfl, rfl⟩

theorem find?_eq {cluster next : Cluster} (same : SameMembers cluster next) (node : NodeId) :
    next.find? node = cluster.find? node := by
  rw [Cluster.find?, Cluster.find?, same.members]

end SameMembers

variable {cluster next : Cluster}

theorem sameMembers_setMailbox (cluster : Cluster) (ref : MailboxRef) (mailbox : Mailbox) :
    SameMembers cluster (cluster.setMailbox ref mailbox) :=
  ⟨rfl, rfl, rfl, by simp [setMailbox]⟩

theorem mailbox_setMailbox {ref : MailboxRef} (present : ref < cluster.mailboxes.size)
    (other : MailboxRef) (mailbox : Mailbox) :
    (cluster.setMailbox ref mailbox).mailbox other =
      if other = ref then mailbox else cluster.mailbox other := by
  by_cases same : other = ref
  · subst same
    simp [Cluster.mailbox, setMailbox, Array.getD_eq_getD_getElem?, present]
  · have differs : ref ≠ other := fun equal => same equal.symm
    simp [Cluster.mailbox, setMailbox, Array.getD_eq_getD_getElem?, same,
      Array.getElem?_setIfInBounds_ne differs]

theorem setMailbox_of_absent {ref : MailboxRef} (absent : ¬ ref < cluster.mailboxes.size)
    (mailbox : Mailbox) : cluster.setMailbox ref mailbox = cluster := by
  simp [setMailbox, Array.setIfInBounds_eq_of_size_le (Nat.not_lt.1 absent)]

theorem messages_setMailbox {ref : MailboxRef} (present : ref < cluster.mailboxes.size)
    (other : MailboxRef) (mailbox : Mailbox) :
    (cluster.setMailbox ref mailbox).messages other =
      if other = ref then mailbox.letters.filterMap Envelope.message?
      else cluster.messages other := by
  rw [messages, mailbox_setMailbox present]
  split
  · rfl
  · rfl

/-- A letter is sent exactly if the inbox of its receiver is open and not full; it comes behind
all others in that inbox. -/
theorem send_eq_ok {sender receiver : NodeId} {topic : String} {payload : Bytes} :
    cluster.send sender receiver topic payload = .ok next ↔
      ∃ ref, cluster.inboxes.get? receiver = some ref ∧
        (cluster.mailbox ref).isOpen = true ∧
          (cluster.mailbox ref).letters.length < cluster.capacity ∧
            next = cluster.setMailbox ref { cluster.mailbox ref with
              letters := (cluster.mailbox ref).letters ++ [⟨sender, topic, payload⟩] } := by
  cases found : cluster.inboxes.get? receiver with
  | none => simp [send, refusal?, found]
  | some ref =>
      cases opened : (cluster.mailbox ref).isOpen with
      | false => simp [send, refusal?, found, opened]
      | true =>
          by_cases full : cluster.capacity ≤ (cluster.mailbox ref).letters.length
          · simp [send, refusal?, found, opened, full, Nat.not_lt.2 full]
          · simp [send, refusal?, post, found, opened, full, Nat.lt_of_not_le full,
              eq_comm (a := next)]

/-- A message that is sent comes behind all others in the inbox of its receiver. -/
theorem messages_of_send {sender receiver : NodeId} {message : Message}
    (readable : message.Readable)
    (housed : ∀ {ref}, cluster.inboxes.get? receiver = some ref → ref < cluster.mailboxes.size)
    (sent : cluster.send sender receiver message.topic message.encode = .ok next) :
    ∃ ref, cluster.inboxes.get? receiver = some ref ∧ SameMembers cluster next ∧
      ∀ other, next.messages other =
        cluster.messages other ++ if other = ref then [message] else [] := by
  obtain ⟨ref, found, -, -, rfl⟩ := send_eq_ok.1 sent
  refine ⟨ref, found, sameMembers_setMailbox _ _ _, ?_⟩
  intro other
  rw [messages_setMailbox (housed found)]
  split
  · rename_i same
    rw [same, List.filterMap_append, messages, List.filterMap_cons,
      Envelope.message?_encode readable]
    rfl
  · rw [List.append_nil]

theorem sameMembers_of_receive {ref : MailboxRef} {letter : Envelope}
    (received : cluster.receive ref = some (letter, next)) : SameMembers cluster next := by
  simp only [receive] at received
  split at received
  · cases received
  · cases received
    exact sameMembers_setMailbox _ _ _

/-- Reading an inbox takes its first letter out. -/
theorem messages_of_receive {ref : MailboxRef} {letter : Envelope}
    (present : ref < cluster.mailboxes.size)
    (received : cluster.receive ref = some (letter, next)) :
    SameMembers cluster next ∧
      cluster.messages ref = letter.message?.toList ++ next.messages ref ∧
      ∀ other, other ≠ ref → next.messages other = cluster.messages other := by
  simp only [receive] at received
  split at received
  · cases received
  · rename_i first rest letters
    cases received
    refine ⟨sameMembers_setMailbox _ _ _, ?_, ?_⟩
    · rw [messages_setMailbox present, if_pos rfl, messages, letters, List.filterMap_cons]
      cases letter.message? with
      | none => rfl
      | some message => rfl
    · intro other differs
      rw [messages_setMailbox present, if_neg differs]

/-- Closing an inbox does nothing to the others. -/
theorem messages_close {ref other : MailboxRef} (present : ref < cluster.mailboxes.size)
    (differs : other ≠ ref) : (cluster.close ref).messages other = cluster.messages other := by
  rw [close, messages_setMailbox present, if_neg differs]

end Cluster

end JobGrid
