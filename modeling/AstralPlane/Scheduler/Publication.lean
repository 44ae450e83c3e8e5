/-
  The atomic publication of a staged conversation.

  `publishStagedChatEffect` commits a staged conversation and publishes the
  effect that was reserved for it, in one transaction: it checks the attempt and
  the reservation, appends the messages, replaces components and layouts, moves
  the conversation to its next revision, and publishes the effect as
  `publishReservedEffect` does.
-/
import AstralPlane.Scheduler.Attempts

namespace AstralPlane.Scheduler

structure StagedChatMessage where
  role : String
  content : String
  titleSource : String
  timestampMs : ℤ
  deriving DecidableEq

/-- A layout; its tree is given as `json.dumps` encodes it, if it does. -/
structure StagedChatLayout where
  layoutKey : String
  position : ℕ
  encodedTree : Option String
  deriving DecidableEq

structure StagedChatPublication where
  conversationId : String
  ownerId : String
  createConversationIfMissing : Bool
  agentId : Option String
  requestedTitle : Option String
  messages : List StagedChatMessage
  publicationId : Uuid
  requestGeneration : Uuid
  baseRenderRevision : ℕ
  committedRenderRevision : ℕ
  layouts : List StagedChatLayout
  deriving DecidableEq

def StagedChatMessage.validate (m : StagedChatMessage) : Check := do
  required "message.role" m.role 64
  ensure (m.content.length ≤ 1000000) (.value "scheduled message content is invalid")
  millisecond "message.timestamp_ms" m.timestampMs

/-- The checks of a list, in order. -/
def checkEach {α : Type} (f : α → Check) : List α → Check
  | [] => pure ()
  | a :: l => do f a; checkEach f l

/-- The checks of the layouts, after the keys that were seen. -/
def validateLayouts (seen : List String) : List StagedChatLayout → Except Exc (List (String × ℕ × String))
  | [] => pure []
  | l :: rest => do
    required "layout_key" l.layoutKey 512
    ensure (l.layoutKey ∉ seen) (.value "scheduled canvas layout identity is duplicated")
    match l.encodedTree with
    | none => .error (.value "scheduled canvas layout tree is invalid")
    | some tree => do
      let layouts ← validateLayouts (l.layoutKey :: seen) rest
      pure ((l.layoutKey, l.position, tree) :: layouts)

/-- The checks of the arguments; the layouts with their encoded trees. -/
def StagedChatPublication.validate (p : StagedChatPublication) (ownerId effectKey : String) :
    Except Exc (List (String × ℕ × String)) := do
  ensure (p.ownerId = ownerId) (.value "staged chat owner differs from the occurrence owner")
  ensure (p.conversationId = effectKey)
    (.value "chat effect key must equal the staged conversation identity")
  required "conversation_id" p.conversationId 256
  required "owner_id" p.ownerId
  uuid4 "publication_id" p.publicationId
  uuid4 "request_generation" p.requestGeneration
  optional p.agentId fun agent => required "agent_id" agent 256
  optional p.requestedTitle fun title => required "requested_title" title 512
  ensure (p.messages ≠ [] && p.messages.length ≤ 10000)
    (.value "staged chat must contain 1..10000 messages")
  ensure (p.committedRenderRevision = p.baseRenderRevision + 1)
    (.value "scheduled conversation revisions are invalid")
  checkEach StagedChatMessage.validate p.messages
  ensure (p.layouts.length ≤ 10000) (.value "scheduled layout count exceeds 10000")
  validateLayouts [] p.layouts

/-- A body on the conversation tables. -/
def onConversations {α : Type} (x : Tx Conversations Exc α) : Work α :=
  Tx.zoom Store.conversations (fun c s => { s with conversations := c }) id x

/-- The chat of the publication, created if it is missing and may be. -/
def publicationChat (p : StagedChatPublication) : Tx Conversations Exc ChatColumns := do
  let c ← Tx.get
  let created : ChatColumns :=
    { userId := p.ownerId, title := "New Chat", agentId := p.agentId,
      updatedAt := ((p.messages.head?.map (·.timestampMs)).getD 0) }
  Tx.set (if (c.chats.lookup p.conversationId).isNone && p.createConversationIfMissing then
    { c with chats := c.chats.insert p.conversationId created } else c)
  let c ← Tx.get
  match (c.chats.lookup p.conversationId).filter (·.userId = p.ownerId) with
  | none => Tx.raise (.ofOwner p.ownerId "scheduled target conversation is missing or owner-mismatched"
      "scheduled_conversation_not_found")
  | some chat => pure chat

/-- The staged commit is the one of the publication and of the attempt. -/
def CommitColumns.isStaged (r : CommitColumns) (p : StagedChatPublication) (operationId : Uuid)
    (executionGeneration : ℕ) : Bool :=
  r.chatId = p.conversationId && r.ownerUserId = p.ownerId &&
    r.requestGeneration = p.requestGeneration && r.state = .staged &&
    r.baseRenderRevision = p.baseRenderRevision && r.operationId = some operationId &&
    r.operationExecutionGeneration = some executionGeneration

/-- The title that the chat gets, from its first user message if none was asked for. -/
def publicationTitle (p : StagedChatPublication) (existingMessages : ℕ) : Option String :=
  match p.requestedTitle with
  | some title => some title
  | none =>
    if existingMessages = 0 then
      (p.messages.find? (·.role = "user")).map fun m =>
        if 30 < m.titleSource.length then String.ofList (m.titleSource.toList.take 30) ++ "..."
        else m.titleSource
    else none

/-- The commit of the staged conversation. -/
def commitConversation (p : StagedChatPublication) (layouts : List (String × ℕ × String))
    (operationId : Uuid) (executionGeneration : ℕ) (committedAt : Time) :
    Tx Conversations Exc Unit := do
  let chat ← publicationChat p
  let c ← Tx.get
  let conflict (message : String) : Exc := .ofOwner p.ownerId message "scheduled_publication_conflict"
  Tx.require ((c.commits.lookup p.publicationId).any
      (·.isStaged p operationId executionGeneration) && chat.renderRevision = p.baseRenderRevision)
    (conflict "scheduled conversation publication fence changed")
  let staged := c.components.filter (·.conversationCommitId = some p.publicationId)
  Tx.require (staged.all (·.committedRenderRevision = some p.committedRenderRevision))
    (conflict "scheduled canvas stage is incomplete")
  let existing := c.messages.countP fun m => m.chatId = p.conversationId && m.userId = p.ownerId
  let updatedMs := (p.messages.getLast?.map (·.timestampMs)).getD 0
  Tx.set { c with
    messages := c.messages ++ p.messages.zipIdx.map fun m =>
      ⟨p.conversationId, p.ownerId, m.1.role, m.1.content, m.1.timestampMs, some p.publicationId,
        some m.2, some p.committedRenderRevision⟩
    components := c.components.filter fun r => !(r.chatId = p.conversationId &&
      r.userId = p.ownerId && r.conversationCommitId ≠ some p.publicationId)
    layouts := (c.layouts.filter fun l => !(l.chatId = p.conversationId && l.userId = p.ownerId)) ++
      layouts.map fun l => ⟨p.conversationId, p.ownerId, l.1, l.2.1, l.2.2, updatedMs,
        some p.publicationId, some p.committedRenderRevision⟩
    commits := c.commits.mapRows fun k r => if k = p.publicationId then
      { r with
        state := .committed
        committedRenderRevision := some p.committedRenderRevision
        committedAt := some committedAt } else r
    chats := c.chats.insert p.conversationId { chat with
      title := (publicationTitle p existing).getD chat.title
      updatedAt := updatedMs
      renderRevision := p.committedRenderRevision
      snapshotCommittedAt := some committedAt
      conversationCommitId := some p.publicationId
      hasSavedComponents := !staged.isEmpty } }

def publishStagedChatEffect (claim : Claim) (operationId : Uuid) (operationExecutionGeneration : ℕ)
    (effectKey payloadDigest : String) (publication : StagedChatPublication) (clock : Clock) :
    Work EffectReservationOutcome := do
  let e : EffectAttempt :=
    ⟨claim, operationId, operationExecutionGeneration, "chat_history", effectKey, payloadDigest⟩
  let layouts ← Tx.ofExcept (publication.validate claim.ownerId effectKey)
  let _ ← validateEffectAttempt e (clock 0)
  let s ← Tx.get
  match s.effects.lookup e.key with
  | none => Tx.raise (.ofOwner claim.ownerId "chat effect was not reserved"
      "effect_reservation_not_found")
  | some effect => do
    Tx.require (effect.payloadDigest = payloadDigest)
      (.ofOwner claim.ownerId "effect key was reused with another payload"
        "effect_idempotency_conflict")
    if effect.state = .published then pure ⟨.published, false, false⟩
    else do
      Tx.require (effect.state = .reserved && effect.attempt = e.attempt)
        (.ofOwner claim.ownerId "chat effect reservation belongs to another attempt"
          "effect_reservation_conflict")
      onConversations (commitConversation publication layouts operationId
        operationExecutionGeneration (clock 1))
      publishReservedEffect e none fun n => clock (n + 2)

end AstralPlane.Scheduler
