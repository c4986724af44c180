import EntsoePipeline.Lib.Recovery
import EntsoePipeline.Py.Str
import Mathlib.Data.Finset.Insert

set_option relaxedAutoImplicit false
set_option autoImplicit false

/-!
# The object storage and its network

The storage answers two kinds of clients: calls on buckets and objects, and requests to the catalog
of tables. A call reaches it through a network on which the call may be refused, or stay without an
answer although it was carried out.

## Main definitions

* `EntsoePipeline.Storage` — buckets with their objects, table buckets and namespaces.
* `EntsoePipeline.Delivery` — what the network does to a call.
* `EntsoePipeline.serve` — a call over the network.
* `EntsoePipeline.headBucket`, `EntsoePipeline.createBucket`, `EntsoePipeline.putObject`,
  `EntsoePipeline.getObject`, `EntsoePipeline.deleteObject`, `EntsoePipeline.createTableBucket`,
  `EntsoePipeline.createNamespace` — the calls.

## Main results

* `EntsoePipeline.moves_serve`, `EntsoePipeline.leaves_serve`, `EntsoePipeline.returns_serve` —
  what a call can change, what holds when it returns, and when it does.

## Implementation notes

The storage follows the documented behaviour of the two protocols. A bucket is created empty, a
directory is an empty object, the removal of an object that is not there succeeds, and a table
bucket or a namespace that exists is reported with the status 409, which no server in front of the
catalog reports. A call that a client repeats on its own is one call here, since every call has the
same effect when it is carried out again.
-/

namespace EntsoePipeline

open Py Recovery Simulation

/-- An exception of the code that prepares the storage. -/
inductive BootError
  /-- An error response to a call, with its code. -/
  | clientError (code : Str)
  /-- An error response to a request, with its status. -/
  | httpError (status : ℕ)
  /-- A call without an answer. -/
  | connectionLost
  /-- The exception of the pipeline, with what it reports in front of its cause. -/
  | entsoeConnectionError (text : Str) (cause : BootError)
  /-- The checked object was not read as it was written. -/
  | valueError (text : Str)
  /-- An exception of code outside. -/
  | other (text : Str)
  /-- The process is left. -/
  | systemExit (status : ℕ)

/-- The buckets that exist with the objects in them by key, the table buckets, and their
namespaces. -/
structure Storage where
  /-- The objects of a bucket. -/
  buckets : Str → Option (Str → Option Str)
  /-- The table buckets. -/
  tableBuckets : Finset Str
  /-- The namespaces, each with its table bucket. -/
  namespaces : Finset (Str × Str)

namespace Storage

/-- The object of a key. -/
def object (s : Storage) (bucketName key : Str) : Option Str :=
  (s.buckets bucketName).bind fun objects => objects key

/-- The storage with other objects in a bucket. -/
def setBucket (s : Storage) (bucketName : Str) (objects : Str → Option Str) : Storage :=
  { s with buckets := Function.update s.buckets bucketName (some objects) }

/-- The objects of a bucket are no table buckets. -/
@[simp] lemma tableBuckets_setBucket (s : Storage) (bucketName : Str)
    (objects : Str → Option Str) : (s.setBucket bucketName objects).tableBuckets = s.tableBuckets :=
  rfl

/-- The objects of a bucket are no namespaces. -/
@[simp] lemma namespaces_setBucket (s : Storage) (bucketName : Str) (objects : Str → Option Str) :
    (s.setBucket bucketName objects).namespaces = s.namespaces := rfl

/-- The bucket that is set has the given objects. -/
@[simp] lemma buckets_setBucket_self (s : Storage) (bucketName : Str)
    (objects : Str → Option Str) :
    (s.setBucket bucketName objects).buckets bucketName = some objects :=
  Function.update_self ..

/-- Other buckets stay as they are. -/
lemma buckets_setBucket_of_ne {s : Storage} {bucketName name : Str} (h : name ≠ bucketName)
    (objects : Str → Option Str) : (s.setBucket bucketName objects).buckets name = s.buckets name :=
  Function.update_of_ne h ..

/-- An object of a bucket is found under its key. -/
lemma object_of_bucket {s : Storage} {bucketName : Str} {objects : Str → Option Str}
    (h : s.buckets bucketName = some objects) (key : Str) :
    s.object bucketName key = objects key := by
  rw [object, h, Option.bind_some]

end Storage

/-! ## The network -/

/-- An error response of a server that did not look at the call, as the two kinds of clients read
it. -/
structure Refusal where
  /-- The code in the response. -/
  code : Str
  /-- The status of the response. -/
  status : ℕ
  /-- The status of a conflict is an answer of the catalog itself. -/
  status_ne : status ≠ 409

/-- What the network does to a call. -/
inductive Delivery
  /-- The call is carried out and answered. -/
  | answered
  /-- The call is refused. -/
  | refused (refusal : Refusal)
  /-- The call stays without an answer. It may have been carried out. -/
  | lost (carriedOut : Bool)

/-- The storage, and how many calls were made. -/
structure Infra where
  /-- The storage. -/
  storage : Storage
  /-- The number of calls. -/
  calls : ℕ

variable {α : Type}

/-- A call: the network decides what becomes of it. -/
def serve (network : ℕ → Delivery) (refusalError : Refusal → BootError)
    (op : Storage → Except BootError α × Storage) : Program Infra BootError α :=
  step fun w =>
    match network w.calls with
    | .answered => ((op w.storage).1, ⟨(op w.storage).2, w.calls + 1⟩)
    | .refused refusal => (.error (refusalError refusal), ⟨w.storage, w.calls + 1⟩)
    | .lost true => (.error .connectionLost, ⟨(op w.storage).2, w.calls + 1⟩)
    | .lost false => (.error .connectionLost, ⟨w.storage, w.calls + 1⟩)

section Rules

open Relation (ReflTransGen)

variable {network : ℕ → Delivery} {refusalError : Refusal → BootError}
  {op : Storage → Except BootError α × Storage}

/-- A call changes what its operation changes, or nothing. -/
lemma moves_serve {R : Storage → Storage → Prop} (hop : ∀ s, ReflTransGen R s (op s).2) :
    Moves Infra.storage R (serve network refusalError op) := by
  intro w
  rw [serve, from_step]
  rcases network w.calls with - | refusal | (- | -)
  · exact hop w.storage
  · exact .refl
  · exact .refl
  · exact hop w.storage

/-- A call that returns was carried out. -/
lemma leaves_serve {P : Storage → Prop} {Q : α → Storage → Prop}
    (hop : ∀ s, P s → ∀ a, (op s).1 = .ok a → Q a (op s).2) :
    Leaves (fun w => P w.storage) (serve network refusalError op) fun a w => Q a w.storage := by
  intro w hw a w' hrun
  rw [serve, from_step] at hrun
  rcases hnetwork : network w.calls with - | refusal | (- | -)
  · rw [hnetwork] at hrun
    obtain ⟨hok, rfl⟩ := Prod.mk.inj hrun
    exact hop w.storage hw a hok
  all_goals
    rw [hnetwork] at hrun
    cases (Prod.mk.inj hrun).1

/-- A call with a handler: the handler starts behind the operation when that raised. -/
lemma leaves_tryCatch_serve {Q : α → Storage → Prop}
    {handler : BootError → Program Infra BootError α} (hok : ∀ s a, (op s).1 = .ok a → Q a (op s).2)
    (herror : ∀ s e, (op s).1 = .error e →
      Leaves (fun w => w.storage = (op s).2) (handler e) fun a w => Q a w.storage)
    (hrefused : ∀ refusal, Leaves (fun _ => True) (handler (refusalError refusal))
      fun a w => Q a w.storage)
    (hlost : Leaves (fun _ => True) (handler .connectionLost) fun a w => Q a w.storage) :
    Leaves (fun _ => True) (tryCatch (serve network refusalError op) handler)
      fun a w => Q a w.storage := by
  rintro w - a w' hrun
  rw [from_tryCatch, serve, from_step] at hrun
  rcases hnetwork : network w.calls with - | refusal | (- | -) <;> simp only [hnetwork] at hrun
  · rcases hresult : (op w.storage).1 with e | a' <;> rw [hresult] at hrun
    · exact herror w.storage e hresult _ rfl a w' hrun
    · obtain ⟨hok', rfl⟩ := Prod.mk.inj hrun
      cases hok'
      exact hok w.storage a hresult
  · exact hrefused refusal _ trivial a w' hrun
  · exact hlost _ trivial a w' hrun
  · exact hlost _ trivial a w' hrun

/-- Without disturbance a call returns when its operation does. -/
lemma returns_serve {P : Storage → Prop} (hcalm : ∀ n, network n = .answered)
    (hop : ∀ s, P s → ∃ a, (op s).1 = .ok a) :
    Returns (fun w => P w.storage) (serve network refusalError op) := by
  intro w hw
  rw [serve, from_step, hcalm]
  exact hop w.storage hw

/-- Without disturbance a call with a handler returns when its operation does or when the handler
does behind it. -/
lemma returns_tryCatch_serve {P : Storage → Prop} {handler : BootError → Program Infra BootError α}
    (hcalm : ∀ n, network n = .answered)
    (hop : ∀ s, P s → (∃ a, (op s).1 = .ok a) ∨
      ∃ e, (op s).1 = .error e ∧ Returns (fun w => w.storage = (op s).2) (handler e)) :
    Returns (fun w => P w.storage) (tryCatch (serve network refusalError op) handler) := by
  intro w hw
  rw [from_tryCatch, serve, from_step, hcalm]
  rcases hop w.storage hw with ⟨a, hok⟩ | ⟨e, herror, hhandler⟩
  · simp only [hok]
    exact ⟨a, rfl⟩
  · simp only [herror]
    exact hhandler _ rfl

end Rules

/-! ## The calls -/

section Calls

variable (network : ℕ → Delivery)

/-- The exception of a call on buckets and objects. -/
def Refusal.toClientError (refusal : Refusal) : BootError := .clientError refusal.code

/-- The exception of a request to the catalog. -/
def Refusal.toHttpError (refusal : Refusal) : BootError := .httpError refusal.status

/-- Ask for a bucket. -/
def headBucket (bucketName : Str) : Program Infra BootError Unit :=
  serve network Refusal.toClientError fun s =>
    match s.buckets bucketName with
    | some _ => (.ok (), s)
    | none => (.error (.clientError "404".toList), s)

/-- Create a bucket. -/
def createBucket (bucketName : Str) : Program Infra BootError Unit :=
  serve network Refusal.toClientError fun s =>
    match s.buckets bucketName with
    | some _ => (.error (.clientError "BucketAlreadyExists".toList), s)
    | none => (.ok (), s.setBucket bucketName fun _ => none)

/-- Write an object. -/
def putObject (bucketName key body : Str) : Program Infra BootError Unit :=
  serve network Refusal.toClientError fun s =>
    match s.buckets bucketName with
    | some objects => (.ok (), s.setBucket bucketName (Function.update objects key (some body)))
    | none => (.error (.clientError "NoSuchBucket".toList), s)

/-- Read an object. -/
def getObject (bucketName key : Str) : Program Infra BootError Str :=
  serve network Refusal.toClientError fun s =>
    match s.buckets bucketName with
    | some objects =>
      match objects key with
      | some body => (.ok body, s)
      | none => (.error (.clientError "NoSuchKey".toList), s)
    | none => (.error (.clientError "NoSuchBucket".toList), s)

/-- Remove an object. -/
def deleteObject (bucketName key : Str) : Program Infra BootError Unit :=
  serve network Refusal.toClientError fun s =>
    match s.buckets bucketName with
    | some objects => (.ok (), s.setBucket bucketName (Function.update objects key none))
    | none => (.error (.clientError "NoSuchBucket".toList), s)

/-- Create a table bucket. -/
def createTableBucket (bucket : Str) : Program Infra BootError Unit :=
  serve network Refusal.toHttpError fun s =>
    if bucket ∈ s.tableBuckets then (.error (.httpError 409), s)
    else (.ok (), { s with tableBuckets := insert bucket s.tableBuckets })

/-- Create a namespace in a table bucket. -/
def createNamespace (tableBucket icebergNamespace : Str) : Program Infra BootError Unit :=
  serve network Refusal.toHttpError fun s =>
    if tableBucket ∉ s.tableBuckets then (.error (.httpError 404), s)
    else if (tableBucket, icebergNamespace) ∈ s.namespaces then (.error (.httpError 409), s)
    else (.ok (), { s with namespaces := insert (tableBucket, icebergNamespace) s.namespaces })

end Calls

end EntsoePipeline
