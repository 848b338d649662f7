import SelericSwarm.Contracts

/-! Threads, messages, artifacts, attachments and memories with their in-memory
repositories. Every method holds its repository's lock, so each is one function
of that repository. -/
namespace SelericSwarm
open Keyed

inductive ThreadStatus where
  | active | archived | deleted
  deriving DecidableEq, Repr

inductive MessageRole where
  | user | assistant | system | tool
  deriving DecidableEq, Repr

inductive ArtifactClassification where
  | ui | factual | derived
  deriving DecidableEq, Repr

inductive AttachmentStatus where
  | pending | ready | failed | deleted
  deriving DecidableEq, Repr

inductive AttachmentScanStatus where
  | pending | clean | quarantined | failed | unavailable
  deriving DecidableEq, Repr

inductive MemoryType where
  | fact | decision | preference | outcome | constraint | definition | summary | instruction
  deriving DecidableEq, Repr

inductive MemoryStatus where
  | candidate | active | superseded | archived | deleted | pendingConsent
  deriving DecidableEq, Repr

structure Thread where
  id : String
  workspaceId : String
  ownerUserId : String
  projectId : Option String := none
  title : Option String := none
  status : ThreadStatus := .active
  metadata : Payload := .empty
  updatedAt : Moment

structure Message where
  id : String
  threadId : String
  workspaceId : String
  role : MessageRole
  parts : List MessagePart
  runId : Option String := none
  createdAt : Moment

structure ArtifactProvenance where
  evidenceIds : List String := []
  calculationVersion : Option String := none
  queryVersion : Option String := none
  promptVersion : Option String := none
  toolVersion : Option String := none
  modelVersion : Option String := none

structure Artifact where
  id : String
  workspaceId : String
  artifactType : String
  payload : Payload
  classification : ArtifactClassification
  evidenceIds : List String := []
  provenance : ArtifactProvenance := {}
  threadId : Option String := none
  runId : Option String := none
  createdAt : Moment

structure Attachment where
  id : String
  threadId : String
  workspaceId : String
  ownerUserId : String
  messageId : Option String := none
  storageUri : Option String := none
  checksumSha256 : Option String := none
  status : AttachmentStatus := .pending
  scanStatus : AttachmentScanStatus := .pending

structure MemoryItem where
  id : String
  workspaceId : String
  ownerUserId : String
  projectId : Option String := none
  threadId : Option String := none
  type : MemoryType
  status : MemoryStatus := .pendingConsent
  content : Json
  normalizedContent : String := ""
  provenance : Payload := .empty
  sourceRunId : Option String := none
  pinned : Bool := false
  validFrom : Option Moment := none
  validTo : Option Moment := none
  updatedAt : Moment
  lastUsedAt : Option Moment := none
  expiresAt : Option Moment := none
  deletedAt : Option Moment := none

structure MemoryPreference where
  workspaceId : String
  ownerUserId : String
  optedOut : Bool := false
  updatedAt : Moment

inductive StoreError where
  | permission (message : String)
  | missing (key : String)
  | invalid (message : String)
  deriving DecidableEq, Repr

/-! The `create` and `update` that most repositories share. -/

section Shared
variable {α : Type} {key : α → String}

/-- The stored record of an id that is taken, unless it belongs to others. -/
def createIn (mine : α → α → Bool) (refusal : String) (items : Table key) (a : α) :
    Except StoreError α × Table key :=
  match items.get? (key a) with
  | none => (.ok a, items.put a)
  | some existing => if mine existing a then (.ok existing, items) else (.error (.permission refusal), items)

def updateIn (mine : α → α → Bool) (refusal : α → StoreError) (items : Table key) (a : α) :
    Except StoreError α × Table key :=
  match items.get? (key a) with
  | none => (.error (.missing (key a)), items)
  | some existing => if mine existing a then (.ok a, items.put a) else (.error (refusal a), items)

end Shared

abbrev ThreadRepository := Table Thread.id

namespace ThreadRepository

def tenant (a b : Thread) : Bool := a.workspaceId = b.workspaceId && a.ownerUserId = b.ownerUserId

def create (s : ThreadRepository) (thread : Thread) : Except StoreError Thread × ThreadRepository :=
  createIn tenant "thread id belongs to another tenant" s thread

def update (s : ThreadRepository) (thread : Thread) : Except StoreError Thread × ThreadRepository :=
  updateIn tenant (fun _ => .permission "thread tenant ownership is immutable") s thread

/-- `sorted(..., key=updated_at, reverse=True)[:max(1, limit)]`. -/
def listForOwner (s : ThreadRepository) (workspaceId userId : String) (limit : Int)
    (status : Option ThreadStatus) : List Thread :=
  ((s.rows.filter fun item => item.workspaceId = workspaceId && item.ownerUserId = userId &&
    status.all (item.status = ·)).insertionSort fun a b => b.updatedAt ≤ a.updatedAt).take
      (max 1 limit).toNat

end ThreadRepository

abbrev MessageRepository := Table Message.id

namespace MessageRepository

def workspace (a b : Message) : Bool := a.workspaceId = b.workspaceId

def create (s : MessageRepository) (message : Message) :
    Except StoreError Message × MessageRepository :=
  createIn workspace "message id belongs to another workspace" s message

def update (s : MessageRepository) (message : Message) :
    Except StoreError Message × MessageRepository :=
  updateIn workspace (fun _ => .permission "message workspace ownership is immutable") s message

/-- The newest messages of the thread, oldest first. -/
def listForThread (s : MessageRepository) (threadId : String) (limit : Int) : List Message :=
  (((s.rows.filter fun item => item.threadId = threadId).insertionSort fun a b =>
    b.createdAt < a.createdAt ∨ b.createdAt = a.createdAt ∧ b.id ≤ a.id).take (max 1 limit).toNat).reverse

end MessageRepository

namespace Artifact

def evidence (artifact : Artifact) : List String :=
  (artifact.evidenceIds ++ artifact.provenance.evidenceIds).reverse.dedup.reverse

def versions (artifact : Artifact) : List (Option String) :=
  [artifact.provenance.calculationVersion, artifact.provenance.queryVersion,
    artifact.provenance.promptVersion, artifact.provenance.toolVersion, artifact.provenance.modelVersion]

def requireProvenance (artifact : Artifact) : Except StoreError Artifact :=
  if artifact.classification = .ui then .ok artifact
  else if artifact.evidence = [] then
    .error (.invalid "factual/derived artifacts require evidence IDs")
  else if artifact.classification = .derived ∧ artifact.versions.all (·.all (· = "")) then
    .error (.invalid "derived artifacts require a calculation/query/prompt/tool/model version")
  else .ok { artifact with
    evidenceIds := artifact.evidence
    provenance := { artifact.provenance with evidenceIds := artifact.evidence } }

end Artifact

abbrev ArtifactRepository := Table Artifact.id

namespace ArtifactRepository

def put (s : ArtifactRepository) (artifact : Artifact) :
    Except StoreError Artifact × ArtifactRepository :=
  match artifact.requireProvenance with
  | .error error => (.error error, s)
  | .ok artifact =>
    match s.get? artifact.id with
    | some existing =>
      if existing.workspaceId = artifact.workspaceId then (.ok artifact, Table.put s artifact)
      else (.error (.permission "artifact id belongs to another workspace"), s)
    | none => (.ok artifact, Table.put s artifact)

def listForContext (s : ArtifactRepository) (workspaceId threadId : String) : List Artifact :=
  (s.rows.filter fun item => item.workspaceId = workspaceId && item.threadId = some threadId).insertionSort
    fun a b => b.createdAt ≤ a.createdAt

end ArtifactRepository

def Attachment.verified (attachment : Attachment) : Bool :=
  attachment.status ≠ .ready || (attachment.scanStatus = .clean &&
    attachment.storageUri.any (· ≠ "") && attachment.checksumSha256.any (· ≠ ""))

abbrev AttachmentRepository := Table Attachment.id

namespace AttachmentRepository

def tenant (a b : Attachment) : Bool :=
  a.workspaceId = b.workspaceId && a.ownerUserId = b.ownerUserId

def unverified : StoreError := .invalid "READY attachments require storage, checksum, and a CLEAN scan"

def create (s : AttachmentRepository) (attachment : Attachment) :
    Except StoreError Attachment × AttachmentRepository :=
  if attachment.verified then createIn tenant "attachment id belongs to another tenant" s attachment
  else (.error unverified, s)

def update (s : AttachmentRepository) (attachment : Attachment) :
    Except StoreError Attachment × AttachmentRepository :=
  if attachment.verified then
    updateIn tenant (fun _ => .permission "attachment tenant ownership is immutable") s attachment
  else (.error unverified, s)

def associable (threadId workspaceId ownerUserId : String) (item : Attachment) : Bool :=
  item.threadId = threadId && item.workspaceId = workspaceId && item.ownerUserId = ownerUserId &&
    item.status = .ready && item.scanStatus = .clean && item.messageId = none

def associateMany (s : AttachmentRepository) (attachmentIds : List String)
    (messageId threadId workspaceId ownerUserId : String) : Bool × AttachmentRepository :=
  if attachmentIds.all fun id => (s.get? id).any (associable threadId workspaceId ownerUserId) then
    (true, s.mapRows
      (fun item => if item.id ∈ attachmentIds then { item with messageId := some messageId } else item)
      (fun item => by by_cases h : item.id ∈ attachmentIds <;> simp [h]))
  else (false, s)

def delete (s : AttachmentRepository) (attachmentId : String) : Bool × AttachmentRepository :=
  match s.get? attachmentId with
  | none => (false, s)
  | some item => (true, s.put { item with status := .deleted })

end AttachmentRepository

structure MemoryRepository where
  items : Table MemoryItem.id := .empty
  usage : Dict String (List String) := .empty
  preferences : Dict (String × String) MemoryPreference := .empty

namespace MemoryRepository

def create (s : MemoryRepository) (memory : MemoryItem) : MemoryRepository :=
  { s with items := s.items.setdefault memory }

def effectiveAt (item : MemoryItem) (now : Moment) : Bool :=
  item.status = .active && item.validFrom.all (· ≤ now) && item.validTo.all (now < ·) &&
    item.expiresAt.all (now < ·)

/-- `sorted(..., key=(pinned, updated_at), reverse=True)[:max(1, limit)]`. -/
def list (s : MemoryRepository) (workspaceId ownerUserId : String) (projectId threadId : Option String)
    (includeInactive : Bool) (limit : Int) (now : Moment) : List MemoryItem :=
  ((s.items.rows.filter fun item => item.workspaceId = workspaceId && item.ownerUserId = ownerUserId &&
    item.deletedAt = none && projectId.all (fun id => item.projectId.all (· = id)) &&
    threadId.all (fun id => item.threadId.all (· = id)) &&
    (includeInactive || effectiveAt item now)).insertionSort fun a b =>
      b.pinned < a.pinned ∨ b.pinned = a.pinned ∧ b.updatedAt ≤ a.updatedAt).take (max 1 limit).toNat

def update (s : MemoryRepository) (memory : MemoryItem) :
    Except StoreError MemoryItem × MemoryRepository :=
  match s.items.get? memory.id with
  | none => (.error (.missing memory.id), s)
  | some existing =>
    if existing.workspaceId = memory.workspaceId ∧ existing.ownerUserId = memory.ownerUserId then
      (.ok memory, { s with items := s.items.put memory })
    else (.error (.missing memory.id), s)

/-- A memory is written back as the context bundle holds it. -/
def recordUsage (s : MemoryRepository) (runId : String) (memories : List MemoryItem) (now : Moment) :
    MemoryRepository :=
  { s with
    items := memories.foldl (fun items memory => items.put { memory with lastUsedAt := some now }) s.items
    usage := s.usage.set runId <| memories.foldl
      (fun ids memory => if memory.id ∈ ids then ids else ids ++ [memory.id]) (s.usage.getD runId []) }

def setPreference (s : MemoryRepository) (preference : MemoryPreference) : MemoryRepository :=
  { s with
    preferences := s.preferences.set (preference.workspaceId, preference.ownerUserId) preference }

end MemoryRepository

end SelericSwarm
