import Gubbi.Library.RowSecurity
import Gubbi.Journal.Conversations
import Gubbi.Journal.Rows
import Gubbi.Extraction.Jobs

/-!
# The tables of all users

The tables that hold rows of users, each row with the `user_id` that its policy compares
with the setting of the session. `app_current_user_active()` reads that setting and gives
no user once the user is deleted; the role of the admin pool bypasses the policies.

Ciphertexts are kept in the clear, archive paths and search vectors are left out, and of
an audit row the actor, the action and the target are kept.
-/

namespace Tenancy

open Text RowSecurity
open JournalEntries (EntryId Entry)
open JournalConversations (TopicId)
open ExtractionJobs (UserId JobId Jobs)

abbrev ConversationId := Nat
abbrev MessageId := Nat
abbrev Time := Nat

structure TopicRow where
  userId : UserId
  path : PyStr
  title : PyStr
  description : PyStr
  updatedAt : Time
  deriving DecidableEq

structure ConversationRow where
  userId : UserId
  record : JournalConversations.ConversationRow
  updatedAt : Time
  processedAt : Option Time
  deriving DecidableEq

def ConversationRow.topicId (row : ConversationRow) : TopicId := row.record.topicId

structure MessageRow where
  userId : UserId
  message : JournalConversations.MessageRow
  deriving DecidableEq

structure EntryRow where
  userId : UserId
  topicId : TopicId
  entry : Entry
  updatedAt : Time
  deriving DecidableEq

structure EmbeddingRow (E : Type) where
  userId : UserId
  embedding : E

inductive AuditAction
  | topicCreated
  | topicRenamed
  | topicDeleted
  | topicMerged
  | entryCreated
  | entryUpdated
  | entryDeleted
  | entryMoved
  | conversationSaved
  | conversationExtracted
  | jobCreated
  | jobCompleted
  | jobFailed
  deriving DecidableEq, Repr

/-- A row of `audit_log` with `actor_type = 'user'`. -/
structure AuditRow where
  actorId : UserId
  action : AuditAction
  targetId : Nat
  deriving DecidableEq

structure Db (E : Type) where
  /-- `deleted_at` of the users. -/
  users : Table UserId (Option Time)
  topics : Table TopicId TopicRow
  conversations : Table ConversationId ConversationRow
  messages : Table MessageId MessageRow
  entries : Table EntryId EntryRow
  embeddings : Table EntryId (EmbeddingRow E)
  jobs : Jobs
  audit : List AuditRow

def Db.empty (E : Type) : Db E :=
  ⟨Table.empty, Table.empty, Table.empty, Table.empty, Table.empty, Table.empty, Table.empty, []⟩

/-- The role of a session and its `app.current_user_id`. -/
structure Login where
  bypassRls : Bool
  currentUserId : Option UserId
  deriving DecidableEq

/-- A session of a user on the app pool. -/
abbrev loginOf (user : UserId) : Login := ⟨false, some user⟩

section Policies
variable {E : Type} (db : Db E) (login : Login)

/-- `app_current_user_active()`. -/
def appCurrentUserActive : Option UserId :=
  login.currentUserId.filter (fun user => db.users.get user = some none)

/-- What the policies `tenant_isolation` and `extraction_jobs_user_isolation` admit. -/
def access : Access UserId :=
  if login.bypassRls then .all else .only (appCurrentUserActive db login)

end Policies

inductive StorageError
  | notNullViolation
  | policyViolation
  | uniqueViolation
  | foreignKeyViolation
  | inFailedTransaction
  | insufficientPrivilege
  | assertionError
  | valueError (message : PyStr)
  | invalidTitle (error : PyError)
  | runtimeError (message : PyStr)
  | topicNotFound (message : PyStr)
  | topicAlreadyExists (message : PyStr)
  | topicMergeConflict (message : PyStr)
  | entryNotFound (message : PyStr)
  | entriesMoveNotFound (missingIds : List EntryId)
  | alreadyInFlight (existingJobId : JobId)
  deriving DecidableEq

section Access
variable {E : Type} {db : Db E} {user owner : UserId}

/-- Without the right to bypass the policies a session sees the rows of its user. -/
theorem admits_of_app {login : Login} (app : login.bypassRls = false)
    (setting : login.currentUserId = some user) (seen : (access db login).admits owner = true) :
    owner = user := by
  simp only [access, app, Bool.false_eq_true, if_false, appCurrentUserActive, setting,
    Access.admits, decide_eq_true_eq] at seen
  exact (Option.some.inj (Option.filter_eq_some_iff.mp seen).1).symm

end Access

end Tenancy
