import OrbitOpenEO.FileStoreAgreement
import OrbitOpenEO.Runner

/-!
# The file routes

The routes under `/files/{user_id}` and the results of jobs use one file store, of
either kind.  A response may depend on what the store holds only where the user of the
request can see it.
-/

namespace OrbitOpenEO

open Lib

/-- `FileStore`: what the routes and the runner use of a store. -/
structure FileBackend (σ : Type) where
  empty : σ
  put : FileKey → Bytes → σ → Except FileError σ
  get : FileKey → σ → Except FileError Bytes
  delete : FileKey → σ → Except FileError σ
  list : String → σ → Except FileError (List FileEntry)

/-- `InMemoryFileStore` as a backend. -/
def FileBackend.memory : FileBackend InMemoryFileStore where
  empty := .empty
  put := InMemoryFileStore.put
  get := InMemoryFileStore.get
  delete := InMemoryFileStore.delete
  list userId store := .ok (store.list userId)

/-- `ObjectStoreBackend` as a backend. -/
def FileBackend.object {σ : Type} (P : PathParser) (S : ObjectStore σ) : FileBackend σ where
  empty := S.empty
  put := ObjectStoreBackend.put P S
  get := ObjectStoreBackend.get P S
  delete := ObjectStoreBackend.delete P S
  list := ObjectStoreBackend.list P S

/-- One operation on a store. -/
def FileBackend.answer {σ : Type} (B : FileBackend σ) (s : σ) : FileOp → FileReply × σ
  | .put key bytes => changed s (B.put key bytes s)
  | .get key => ((B.get key s).map .bytes, s)
  | .delete key => changed s (B.delete key s)
  | .list userId => ((B.list userId s).map .entries, s)

theorem FileBackend.answer_memory (store : InMemoryFileStore) (op : FileOp) :
    FileBackend.memory.answer store op = store.step op := by
  cases op <;> rfl

theorem FileBackend.answer_object {σ : Type} (P : PathParser) (S : ObjectStore σ) (s : σ)
    (op : FileOp) : (FileBackend.object P S).answer s op = ObjectStoreBackend.step P S s op := by
  cases op <;> rfl

/-- A request to the file routes. -/
inductive FilesRequest where
  | list (userId : String)
  | download (userId path : String)
  | upload (userId path : String) (body : Bytes)
  | delete (userId path : String)

/-- The user id in the URL of a request. -/
def FilesRequest.userId : FilesRequest → String
  | .list userId => userId
  | .download userId _ => userId
  | .upload userId _ _ => userId
  | .delete userId _ => userId

/-- The operation of the store that a request asks for. -/
def FilesRequest.op : FilesRequest → FileOp
  | .list userId => .list userId
  | .download userId path => .get ⟨userId, path⟩
  | .upload userId path body => .put ⟨userId, path⟩ body
  | .delete userId path => .delete ⟨userId, path⟩

/-- The key under which a request stores a file or takes one out. -/
def FilesRequest.changes : FilesRequest → Option FileKey
  | .list _ => none
  | .download _ _ => none
  | .upload userId path _ => some ⟨userId, path⟩
  | .delete userId path => some ⟨userId, path⟩

/-- The responses of the file routes. -/
inductive FilesResponse where
  | listing (files : List FileEntry)
  | file (body : Bytes)
  | empty (status : Nat)
  | problem (status : Nat) (code message : String)
deriving DecidableEq

namespace FileBackend

variable {σ : Type} (B : FileBackend σ)

/-- The entries of a listing; none if the store refuses. -/
def listed (userId : String) (s : σ) : List FileEntry :=
  match B.list userId s with
  | .ok entries => entries
  | .error _ => []

/-- `list_files`. -/
def listFiles (userId : String) (s : σ) : FilesResponse := .listing (B.listed userId s)

/-- `download_file`. -/
def downloadFile (userId path : String) (s : σ) : FilesResponse :=
  match B.get ⟨userId, path⟩ s with
  | .ok bytes => .file bytes
  | .error .notFound => .problem 404 "FilePathNotFound" "file not found"
  | .error (.forbidden p) => .problem 400 "FilePathInvalid" p
  | .error (.io e) => .problem 500 "Internal" e

/-- What a refused change is answered with. -/
def refusal : FileError → FilesResponse
  | .forbidden p => .problem 400 "FilePathInvalid" p
  | e => .problem 500 "Internal" e.toText

/-- `upload_file`. -/
def uploadFile (userId path : String) (body : Bytes) (s : σ) : FilesResponse × σ :=
  match B.put ⟨userId, path⟩ body s with
  | .ok t => (.empty 200, t)
  | .error e => (refusal e, s)

/-- `delete_file`. -/
def deleteFile (userId path : String) (s : σ) : FilesResponse × σ :=
  match B.delete ⟨userId, path⟩ s with
  | .ok t => (.empty 204, t)
  | .error e => (refusal e, s)

/-- One request. -/
def handle (s : σ) : FilesRequest → FilesResponse × σ
  | .list userId => (B.listFiles userId s, s)
  | .download userId path => (B.downloadFile userId path s, s)
  | .upload userId path body => B.uploadFile userId path body s
  | .delete userId path => B.deleteFile userId path s

/-- A request leaves the store as its operation does. -/
theorem handle_snd (s : σ) (r : FilesRequest) : (B.handle s r).2 = (B.answer s r.op).2 := by
  cases r with
  | upload userId path body =>
      simp only [handle, uploadFile, FilesRequest.op, answer]
      cases B.put ⟨userId, path⟩ body s <;> rfl
  | delete userId path =>
      simp only [handle, deleteFile, FilesRequest.op, answer]
      cases B.delete ⟨userId, path⟩ s <;> rfl
  | _ => rfl

/-- The key of a result. -/
def resultKey (jobId contentType : String) : FileKey := ⟨jobId, defaultAssetName contentType⟩

/-- What `run_job` does to the store with the result of a job. -/
def storeResult (jobId contentType : String) (body : Bytes) (s : σ) : σ :=
  match B.put (resultKey jobId contentType) body s with
  | .ok t => t
  | .error _ => s

end FileBackend

/-- What happens to the shared store. -/
inductive FilesEvent where
  | request (r : FilesRequest)
  | result (jobId contentType : String) (body : Bytes)

/-- The event is for one of the users or one of the jobs. -/
def FilesEvent.Concerns (users jobs : Set String) : FilesEvent → Prop
  | .request r => r.userId ∈ users
  | .result jobId _ _ => jobId ∈ jobs

/-- Responses with the same content; a listing is a set of entries. -/
def SameResponse : FilesResponse → FilesResponse → Prop
  | .listing files, .listing files' => ∀ e, e ∈ files ↔ e ∈ files'
  | r, r' => r = r'

theorem SameResponse.refl (r : FilesResponse) : SameResponse r r := by
  cases r with
  | listing files => exact fun _ => Iff.rfl
  | file body => rfl
  | empty status => rfl
  | problem status code message => rfl

namespace FileBackend

variable {σ : Type} (B : FileBackend σ)

/-- One event. -/
def step (s : σ) : FilesEvent → Option σ
  | .request r => some (B.handle s r).2
  | .result jobId contentType body => some (B.storeResult jobId contentType body s)

/-- The states of the store after events for the users and the jobs. -/
def Reached (users jobs : Set String) (s : σ) : Prop :=
  Reach B.step (fun _ event => event.Concerns users jobs) B.empty s

/-- Namespace isolation:

* no request changes or removes a result;
* no response depends on the results that are stored;
* no response to a user depends on the requests of another one. -/
structure Isolated (users jobs : Set String) : Prop where
  resultsKept : ∀ s r jobId contentType, B.Reached users jobs s → r.userId ∈ users →
    jobId ∈ jobs →
      B.get (resultKey jobId contentType) (B.handle s r).2 =
        B.get (resultKey jobId contentType) s
  resultsUnread : ∀ s r jobId contentType body, B.Reached users jobs s → r.userId ∈ users →
    jobId ∈ jobs →
      SameResponse (B.handle (B.storeResult jobId contentType body s) r).1 (B.handle s r).1
  usersApart : ∀ s r r', B.Reached users jobs s → r.userId ∈ users → r'.userId ∈ users →
    r.userId ≠ r'.userId → SameResponse (B.handle (B.handle s r).2 r').1 (B.handle s r').1

end FileBackend

end OrbitOpenEO
