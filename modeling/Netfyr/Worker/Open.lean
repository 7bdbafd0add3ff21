import Netfyr.Interact.Threads
import Netfyr.Worker.Channel

/-!
# Opening a Backend

The calling thread opens the file of a namespace and starts the worker, which is
in the same namespace as it at first and holds the file from then on. The worker
enters the namespace of the file, opens its sockets and says that it is ready, or
what has failed. Meanwhile the calling thread may have stopped waiting.

A thread has its namespace to itself, but a socket is of the one its thread was
in, and a file is known by an identity that another one may have when it is gone.
So it matters which thread enters, that it does before it has a socket, and that
the file is held: from this the sockets are all of the namespace of the file, and
a handle is never that of another.

A worker that cannot serve closes what it has. Its file goes before the last of its
sockets, which are with the tasks of the runtime.

## Main definitions

* `NetlinkBackend.open'`, `NetlinkBackend.current`: What the calling thread does.
* `startWorker`: The worker, up to where it serves.
* `openTransport`: The sockets of a transport.
* `opening`: The two threads, over the system.

## Theorems

* `open_assures`, `startWorker_assures`: Both threads keep to what they undertake.
* `open_confined`: Only the worker moves, before it has a socket, and its sockets
  are inside.
* `open_returned`: What a handle stands for.
-/

namespace Netfyr

open Interact

/-- The threads that open a backend. -/
inductive OpenThread where
  | caller
  | worker
  deriving DecidableEq

/-- The sockets of a transport. -/
inductive SocketKind where
  | route
  | ioctl
  | ethtool
  | wireless
  deriving DecidableEq

/-- What is set on the route socket before it is used. -/
inductive RouteOption where
  | address
  | extAck
  | capAck
  deriving DecidableEq

/-- What the two threads ask of the system, over the files there can be. -/
inductive OpenCall (F : Type) where
  | openFile (path : String)
  | fileSystem (file : F)
  | metadata (file : F)
  | spawn (file : F) (namespaceId : NamespaceId)
  | receiveReady
  | dropReady
  | ownMetadata
  | setns (file : F)
  | buildRuntime
  | socket (kind : SocketKind)
  | configure (option : RouteOption)
  | sendReady (message : Except BackendError Unit)
  | closeFile
  | closeSockets (kinds : List SocketKind)

variable {F : Type}

/-- What the system answers. -/
@[reducible] def OpenAnswer : OpenCall F → Type
  | .openFile _ => Except IoError F
  | .fileSystem _ => Except IoError Int
  | .metadata _ | .ownMetadata => Except IoError NamespaceId
  | .receiveReady => Option (Except BackendError Unit)
  | .dropReady | .closeFile | .closeSockets _ => Unit
  | .spawn _ _ | .setns _ | .buildRuntime | .socket _ | .configure _ => Except IoError Unit
  -- Whether anybody is there to receive it.
  | .sendReady _ => Bool

/-- A step of opening a backend. -/
abbrev Opening (F : Type) : Type → Type := Action (OpenCall F) OpenAnswer Unit BackendError

/-- The error with what was being done. -/
def context (error : BackendError) (what : String) : BackendError :=
  { error with message := s!"{what}: {error.message}" }

/-- The magic number of the file system of namespaces. -/
def nsfsMagic : Int := 0x6e736673

/-- The error of a namespace that cannot be opened. -/
def unopened (path : String) (error : IoError) : BackendError :=
  context (.fromIo .notFound error) s!"open namespace {path}"

/-- Open the file of a namespace. -/
def openNamespace (path : String) : Opening F F := do
  let file ← Action.ask (.openFile path) fun answer => answer.mapError (unopened path)
  let filesystem ← Action.ask (.fileSystem file) fun answer => answer.mapError (unopened path)
  if filesystem = nsfsMagic then pure file
  else Action.fail (.new .unsupportedOperation s!"{path} is not a namespace file")

/-- Enter the namespace, unless the thread is in it. -/
def enterNamespace (file : F) (namespaceId current : NamespaceId) : Opening F Unit :=
  if current = namespaceId then pure ()
  else
    Action.ask (.setns file) fun answer => answer.mapError fun error =>
      context (.fromIo .unsupportedOperation error) "enter namespace"

/-- What the worker does before it opens a socket. -/
def setup (file : F) (namespaceId : NamespaceId) : Opening F Unit := do
  let current ← Action.ask .ownMetadata fun answer => answer.mapError (.fromIo .internal)
  enterNamespace file namespaceId current
  Action.ask .buildRuntime fun answer => answer.mapError fun error => .new .internal error.message

/-- The diagnostic of a socket that there is not. -/
def missing (field : String) : Except IoError Unit → List Diagnostic
  | .ok () => []
  | .error error => [diagnostic none field error.message]

/-- Open the sockets of a transport. Two of them it can do without. -/
def openTransport (namespaceId : NamespaceId) : Opening F LinuxTransport := do
  let failed := BackendError.fromIo .queryFailed
  Action.ask (.socket .route) fun answer => answer.mapError failed
  Action.ask (.configure .address) fun answer => answer.mapError failed
  Action.ask (.configure .extAck) fun answer => answer.mapError failed
  Action.ask (.configure .capAck) fun answer => answer.mapError failed
  Action.ask (.socket .ioctl) fun answer => answer.mapError failed
  let ethtool ← Action.ask (.socket .ethtool) .ok
  let wireless ← Action.ask (.socket .wireless) .ok
  pure (.new namespaceId ethtool.isOk wireless.isOk
    (missing "ethernet" ethtool ++ missing "type" wireless))

/-- A worker that says what has failed, and is gone. -/
def failWorker (error : BackendError) : Program (OpenCall F) OpenAnswer (Option LinuxTransport) :=
  .call (.sendReady (.error error)) fun _ => .call .closeFile fun _ => .done none

/-- A worker that nobody waits for. -/
def leaveWorker : Program (OpenCall F) OpenAnswer (Option LinuxTransport) :=
  -- The transport has one socket itself. The others are with tasks that last as long
  -- as the runtime, and that is dropped behind the file.
  .call (.closeSockets [.ioctl]) fun _ => .call .closeFile fun _ =>
    .call (.closeSockets [.route, .ethtool, .wireless]) fun _ => .done none

/-- The worker, up to where it serves: with a transport, if it does. -/
def startWorker (file : F) (namespaceId : NamespaceId) :
    Program (OpenCall F) OpenAnswer (Option LinuxTransport) :=
  (setup file namespaceId ()).bind fun out =>
    match out.1 with
    | .error error => failWorker error
    | .ok () => (openTransport namespaceId ()).bind fun out =>
        match out.1 with
        -- What there is of a transport goes before anything is said.
        | .error error => .call (.closeSockets [.route]) fun _ => failWorker error
        | .ok transport => .call (.sendReady (.ok ())) fun accepted =>
            if accepted then .done (some transport) else leaveWorker

namespace NetlinkBackend

/-- Open a namespace: the identity of the file that the worker works in. -/
def open' (path : String) : Opening F NamespaceId := do
  let file ← openNamespace path
  let namespaceId ← Action.ask (.metadata file) fun answer => answer.mapError fun error =>
    context (.fromIo .internal error) "namespace metadata"
  Action.ask (.spawn file namespaceId) fun answer => answer.mapError fun error =>
    .new .internal s!"start namespace worker: {error.message}"
  let ready ← Action.ask .receiveReady .ok
  Action.ask .dropReady .ok
  Action.ofExcept (ready.getD (.error disconnected))
  pure namespaceId

/-- The file of the calling thread's own namespace. -/
def ownNamespace : String := "/proc/thread-self/ns/net"

/-- Open the calling thread's namespace. -/
def current : Opening F NamespaceId := open' ownNamespace

end NetlinkBackend

/-- What the files there can be are: their identities, which a file leaves to others
    when it is gone, and their kinds. -/
structure Files (F : Type) where
  namespaceId : F → NamespaceId
  filesystem : F → Int
  isNetwork : F → Bool

/-- What a thread has: the namespace it is in, as the file of it, the file it holds,
    and its sockets with the namespaces they are of. -/
structure Holding (F : Type) where
  home : F
  file : Option F
  sockets : List (SocketKind × F)

/-- What the threads share: the files there are, what each thread has, and the
    channel on which the worker says that it is ready. -/
structure OpenState (F : Type) where
  live : F → Prop
  threads : OpenThread → Option (Holding F)
  sent : List (Except BackendError Unit)
  received : Nat
  listening : Bool

namespace OpenState

/-- What a thread has from now on. -/
def hold (self : OpenState F) (thread : OpenThread) (holding : Holding F) : OpenState F :=
  { self with threads := Function.update self.threads thread (some holding) }

end OpenState

variable (files : Files F)

/-- What a call of a thread may be answered, and where that leads. -/
def openActs (thread : OpenThread) (s : OpenState F) :
    (call : OpenCall F) → OpenAnswer call → OpenState F → Prop
  | .openFile path, .ok file, s' => s.live file ∧ ∃ own, s.threads thread = some own ∧
      (path = NetlinkBackend.ownNamespace → file = own.home) ∧
      s' = s.hold thread { own with file := some file }
  | .openFile _, .error _, s' => s' = s
  | .fileSystem file, .ok filesystem, s' => filesystem = files.filesystem file ∧ s' = s
  | .fileSystem _, .error _, s' => s' = s
  | .metadata file, .ok namespaceId, s' => namespaceId = files.namespaceId file ∧ s' = s
  | .metadata _, .error _, s' => s' = s
  -- The file goes to the new thread, which starts in the namespace of this one.
  | .spawn file _, .ok (), s' => ∃ own, s.threads thread = some own ∧
      s' = (s.hold thread { own with file := none }).hold .worker ⟨own.home, some file, []⟩
  | .spawn _ _, .error _, s' => ∃ own, s.threads thread = some own ∧
      s' = s.hold thread { own with file := none }
  | .receiveReady, some message, s' =>
      s.sent[s.received]? = some message ∧ s' = { s with received := s.received + 1 }
  -- Nothing within the time, or nobody left to send.
  | .receiveReady, none, s' => s.sent[s.received]? = none ∧ s' = s
  | .dropReady, (), s' => s' = { s with listening := false }
  | .ownMetadata, .ok namespaceId, s' => ∃ own, s.threads thread = some own ∧
      namespaceId = files.namespaceId own.home ∧ s' = s
  | .ownMetadata, .error _, s' => s' = s
  | .setns file, .ok (), s' => files.isNetwork file = true ∧ ∃ own, s.threads thread = some own ∧
      s' = s.hold thread { own with home := file }
  | .setns _, .error _, s' => s' = s
  | .buildRuntime, _, s' => s' = s
  | .socket kind, .ok (), s' => ∃ own, s.threads thread = some own ∧
      s' = s.hold thread { own with sockets := own.sockets ++ [(kind, own.home)] }
  | .socket _, .error _, s' => s' = s
  | .configure _, _, s' => s' = s
  -- The channel has room for one message.
  | .sendReady message, accepted, s' => accepted = s.listening ∧
      s.sent.length ≤ s.received ∧
      s' = if accepted then { s with sent := s.sent ++ [message] } else s
  | .closeFile, (), s' => ∃ own, s.threads thread = some own ∧
      s' = s.hold thread { own with file := none }
  | .closeSockets kinds, (), s' => ∃ own, s.threads thread = some own ∧
      s' = s.hold thread { own with sockets := own.sockets.filter fun socket => socket.1 ∉ kinds }

/-- Files come and go, but not those that a thread is in or holds, and no two have
    one identity at a time. -/
structure OpenHappens (s s' : OpenState F) : Prop where
  only : ∃ live, s' = { s with live := live }
  held : ∀ thread own, s.threads thread = some own → s'.live own.home ∧ ∀ f ∈ own.file, s'.live f
  distinct : ∀ f g, s'.live f → s'.live g → files.namespaceId f = files.namespaceId g → f = g

/-- What the threads end in. -/
@[reducible] def OpenResult : OpenThread → Type
  | .caller => Except BackendError NamespaceId × Unit
  | .worker => Option LinuxTransport

/-- A call that starts the worker. -/
def openStarts : Event (OpenCall F) OpenAnswer →
    Option (Σ thread, Program (OpenCall F) OpenAnswer (OpenResult thread))
  | ⟨.spawn file namespaceId, .ok ()⟩ => some ⟨.worker, startWorker file namespaceId⟩
  | _ => none

/-- The two threads, over the system. -/
def opening : Sharing OpenThread (OpenState F) (OpenCall F) OpenAnswer OpenResult where
  acts := openActs files
  happens := OpenHappens files
  starts := openStarts

section Discipline

variable (path : String) (home : F)

/-- The calling thread is where it was, no two files have one identity, what a thread
    is in or holds is there, and the sockets of the worker are of the namespace it is
    in. -/
structure OpenState.Sound (s : OpenState F) : Prop where
  distinct : ∀ f g, s.live f → s.live g → files.namespaceId f = files.namespaceId g → f = g
  held : ∀ thread own, s.threads thread = some own → s.live own.home ∧ ∀ f ∈ own.file, s.live f
  caller : ∃ file, s.threads .caller = some ⟨home, file, []⟩
  worker : ∀ own, s.threads .worker = some own → ∀ socket ∈ own.sockets, socket.2 = own.home

/-- A call that closes something. -/
def OpenCall.closes : OpenCall F → Bool
  | .closeFile | .closeSockets _ => true
  | _ => false

/-- Where the worker may make a call: a namespace is entered before there is a socket,
    if the worker is not in it, and sockets are opened inside. It holds the file until
    it closes it. -/
def Holding.Permits (own : Holding F) : OpenCall F → Prop
  | .setns file => own.file = some file ∧ own.home ≠ file ∧ own.sockets = [] ∧
      path ≠ NetlinkBackend.ownNamespace
  | .socket _ => own.file = some own.home
  | .spawn _ _ => False
  | call => call.closes = true ∨ own.file.isSome = true

/-- There is no worker yet. -/
structure OpenState.Awaiting (file : Option F) (s : OpenState F) : Prop where
  sound : s.Sound files home
  caller : s.threads .caller = some ⟨home, file, []⟩
  worker : s.threads .worker = none
  sent : s.sent = []
  received : s.received = 0

/-- Where a thread may make a call. -/
def MayOpen : OpenThread → OpenCall F → OpenState F → Prop
  | .caller, .setns _, _ => False
  | .caller, .socket _, _ => False
  | .caller, .spawn file namespaceId, s => namespaceId = files.namespaceId file ∧
      (path = NetlinkBackend.ownNamespace → file = home) ∧ s.Awaiting files home (some file)
  | .caller, _, _ => True
  | .worker, call, s => .ok () ∉ s.sent ∧
      ∃ own, s.threads .worker = some own ∧ own.Permits path call

/-- What the calls of a thread do to the other. -/
def DoesOpen : OpenThread → OpenState F → OpenState F → Prop
  | .caller, s, s' => (s.Sound files home → s'.Sound files home) ∧
      ∀ own, s.threads .worker = some own → s'.threads .worker = some own ∧ s'.sent = s.sent
  | .worker, s, s' => (s.Sound files home → s'.Sound files home) ∧
      s'.threads .caller = s.threads .caller ∧ s.sent <+: s'.sent ∧ s'.received = s.received ∧
      ∃ own own', s.threads .worker = some own ∧ s'.threads .worker = some own' ∧
        ∀ f ∈ own'.file, f ∈ own.file

/-- What the two threads keep to. -/
def openUndertaking : Undertaking OpenThread (OpenState F) (OpenCall F) where
  may := MayOpen files path home
  does := DoesOpen files home

end Discipline

section States

variable {files} {home : F} {s s' : OpenState F} {thread : OpenThread}

@[simp] theorem OpenState.hold_same (own : Holding F) :
    (s.hold thread own).threads thread = some own :=
  Function.update_self _ _ _

theorem OpenState.hold_other {other : OpenThread} (own : Holding F) (h : other ≠ thread) :
    (s.hold thread own).threads other = s.threads other :=
  Function.update_of_ne h _ _

@[simp] theorem OpenState.hold_caller_worker (own : Holding F) :
    (s.hold .caller own).threads .worker = s.threads .worker :=
  hold_other own (by decide)

@[simp] theorem OpenState.hold_worker_caller (own : Holding F) :
    (s.hold .worker own).threads .caller = s.threads .caller :=
  hold_other own (by decide)

/-- What a thread has may change as long as it is there. -/
theorem OpenState.Sound.hold {own : Holding F} (h : s.Sound files home) (hhome : s.live own.home)
    (hfile : ∀ f ∈ own.file, s.live f)
    (hcaller : thread = .caller → own.home = home ∧ own.sockets = [])
    (hworker : thread = .worker → ∀ socket ∈ own.sockets, socket.2 = own.home) :
    (s.hold thread own).Sound files home where
  distinct := h.distinct
  held other holding hother := by
    by_cases heq : other = thread
    · subst heq
      rw [hold_same] at hother
      rw [← Option.some.inj hother]
      exact ⟨hhome, hfile⟩
    · rw [hold_other _ heq] at hother
      exact h.held other holding hother
  caller := by
    cases thread with
    | caller =>
        rcases own with ⟨ownHome, ownFile, ownSockets⟩
        rcases hcaller rfl with ⟨hown, hnone⟩
        dsimp only at hown hnone
        subst hown hnone
        exact ⟨ownFile, hold_same _⟩
    | worker =>
        rw [hold_worker_caller]
        exact h.caller
  worker holding hholding := by
    cases thread with
    | caller =>
        rw [hold_caller_worker] at hholding
        exact h.worker holding hholding
    | worker =>
        rw [hold_same] at hholding
        rw [← Option.some.inj hholding]
        exact hworker rfl

theorem OpenState.Sound.hold_caller {file : Option F} (h : s.Sound files home)
    (hfile : ∀ f ∈ file, s.live f) : (s.hold .caller ⟨home, file, []⟩).Sound files home := by
  rcases h.caller with ⟨_, hcaller⟩
  exact h.hold (h.held _ _ hcaller).1 hfile (fun _ => ⟨rfl, rfl⟩)
    (fun habs => absurd habs (by decide))

theorem OpenState.Sound.hold_worker {own : Holding F} (h : s.Sound files home)
    (hhome : s.live own.home) (hfile : ∀ f ∈ own.file, s.live f)
    (hsockets : ∀ socket ∈ own.sockets, socket.2 = own.home) :
    (s.hold .worker own).Sound files home :=
  h.hold hhome hfile (fun habs => absurd habs (by decide)) (fun _ => hsockets)

/-- A worker that may make a call that closes nothing holds the file. -/
theorem Holding.Permits.holds {path : String} {own : Holding F} {call : OpenCall F}
    (h : own.Permits path call) (hcloses : call.closes = false) : own.file.isSome = true := by
  cases call with
  | setns file => rw [h.1, Option.isSome_some]
  | socket kind => rw [show own.file = some own.home from h, Option.isSome_some]
  | spawn _ _ => exact h.elim
  | _ => exact h.resolve_left (by rw [hcloses]; exact Bool.false_ne_true)

/-- Whatever becomes of the other files. -/
theorem OpenState.Sound.happens (h : s.Sound files home) (hstep : OpenHappens files s s') :
    s'.Sound files home := by
  rcases hstep with ⟨⟨live, rfl⟩, hheld, hdistinct⟩
  exact ⟨hdistinct, hheld, h.caller, h.worker⟩

end States

section Caller

variable {files} {path : String} {home : F} {s s' : OpenState F} {file : Option F}
  {namespaceId : NamespaceId}

/-- The caller keeps an assertion that neither the worker nor anything that happens by
    itself can end. -/
theorem steady_caller {P : OpenState F → Prop}
    (hhappens : ∀ s s', OpenHappens files s s' → P s → P s')
    (hworker : ∀ s s', DoesOpen files home .worker s s' → P s → P s') :
    Steady (opening files) (openUndertaking files path home) .caller P := by
  rintro s s' (hstep | ⟨other, hother, hdoes⟩) h
  · exact hhappens s s' hstep h
  · cases other with
    | caller => exact absurd rfl hother
    | worker => exact hworker s s' hdoes h

theorem OpenState.Awaiting.steady :
    Steady (opening files) (openUndertaking files path home) .caller
      (fun s => s.Awaiting files home file) := by
  refine steady_caller (fun s s' hstep h => ?_) (fun s s' hdoes h => ?_)
  · have hsound := h.sound.happens hstep
    rcases hstep.only with ⟨live, rfl⟩
    exact ⟨hsound, h.caller, h.worker, h.sent, h.received⟩
  · rcases hdoes with ⟨_, _, _, _, own, _, hown, _⟩
    rw [h.worker] at hown
    exact absurd hown (by simp only [reduceCtorEq, not_false_eq_true])

/-- The worker was started on the file of this identity. -/
structure OpenState.Started (files : Files F) (home : F) (namespaceId : NamespaceId)
    (s : OpenState F) : Prop where
  sound : s.Sound files home
  worker : ∃ own, s.threads .worker = some own ∧ ∀ f ∈ own.file, files.namespaceId f = namespaceId
  received : s.received = 0

theorem OpenState.Started.steady :
    Steady (opening files) (openUndertaking files path home) .caller
      (fun s => s.Started files home namespaceId) := by
  refine steady_caller (fun s s' hstep h => ?_) (fun s s' hdoes h => ?_)
  · have hsound := h.sound.happens hstep
    rcases hstep.only with ⟨live, rfl⟩
    exact ⟨hsound, h.worker, h.received⟩
  · rcases hdoes with ⟨hsound, _, _, hreceived, own, own', hown, hown', hfile⟩
    rcases h.worker with ⟨held, hheld, hnamed⟩
    obtain rfl := Option.some.inj (hown.symm.trans hheld)
    exact ⟨hsound h.sound, ⟨own', hown', fun f hf => hnamed f (hfile f hf)⟩,
      hreceived.trans h.received⟩

/-- The caller has what it waited for, or has waited too long. -/
structure OpenState.Heard (files : Files F) (home : F) (namespaceId : NamespaceId)
    (ready : Option (Except BackendError Unit)) (s : OpenState F) : Prop where
  sound : s.Sound files home
  worker : ∃ own, s.threads .worker = some own ∧ ∀ f ∈ own.file, files.namespaceId f = namespaceId
  sent : ∀ message, ready = some message → s.sent.head? = some message

theorem OpenState.Heard.steady {ready : Option (Except BackendError Unit)} :
    Steady (opening files) (openUndertaking files path home) .caller
      (fun s => s.Heard files home namespaceId ready) := by
  refine steady_caller (fun s s' hstep h => ?_) (fun s s' hdoes h => ?_)
  · have hsound := h.sound.happens hstep
    rcases hstep.only with ⟨live, rfl⟩
    exact ⟨hsound, h.worker, h.sent⟩
  · rcases hdoes with ⟨hsound, _, hsent, _, own, own', hown, hown', hfile⟩
    rcases h.worker with ⟨held, hheld, hnamed⟩
    obtain rfl := Option.some.inj (hown.symm.trans hheld)
    refine ⟨hsound h.sound, ⟨own', hown', fun f hf => hnamed f (hfile f hf)⟩, fun m hm => ?_⟩
    -- What is sent stays the first of what is sent.
    rcases hsent with ⟨later, hlater⟩
    have hhead := h.sent m hm
    rw [← hlater, List.head?_append, hhead]
    rfl

/-- What the caller ends in. -/
def callerEnds (files : Files F) (home : F) (out : Except BackendError NamespaceId × Unit)
    (s : OpenState F) : Prop :=
  match out.1 with
  | .ok namespaceId => s.Heard files home namespaceId (some (.ok ()))
  | .error error => s.threads .worker = none ∨ error = disconnected ∨
      s.sent.head? = some (.error error)

/-- What opening the file ends in. -/
def fileOpened (files : Files F) (path : String) (home : F) (out : Except BackendError F × Unit)
    (s : OpenState F) : Prop :=
  match out.1 with
  | .ok file => s.Awaiting files home (some file) ∧
      (path = NetlinkBackend.ownNamespace → file = home)
  | .error _ => ∃ file, s.Awaiting files home file

/-- What leaves the worker and what it sent alone is the caller's to do. -/
theorem doesOpen_caller (hsound : s.Sound files home → s'.Sound files home)
    (hworker : s'.threads .worker = s.threads .worker) (hsent : s'.sent = s.sent) :
    DoesOpen files home .caller s s' :=
  ⟨hsound, fun _ hown => ⟨hworker.trans hown, hsent⟩⟩

theorem doesOpen_caller_same : DoesOpen files home .caller s s :=
  doesOpen_caller id rfl rfl

/-- As long as there is no worker, the caller may end in an error. -/
theorem OpenState.Awaiting.ends {error : BackendError} (h : s.Awaiting files home file) :
    (Program.done (.error error, ()) :
      Program (OpenCall F) OpenAnswer (Except BackendError NamespaceId × Unit)).Assures
        (opening files) (openUndertaking files path home) .caller (callerEnds files home) s :=
  .done Awaiting.steady (fun _ hs => Or.inl hs.worker) h

/-- The caller holds another file or none, as long as there is no worker. -/
theorem OpenState.Awaiting.holds {file' : Option F} (h : s.Awaiting files home file)
    (hfile : ∀ f ∈ file', s.live f) :
    DoesOpen files home .caller s (s.hold .caller ⟨home, file', []⟩) ∧
      (s.hold .caller ⟨home, file', []⟩).Awaiting files home file' := by
  have hsound : (s.hold .caller ⟨home, file', []⟩).Sound files home := h.sound.hold_caller hfile
  exact ⟨doesOpen_caller (fun _ => hsound) (hold_caller_worker _) rfl, hsound, hold_same _,
    (hold_caller_worker _).trans h.worker, h.sent, h.received⟩

/-- The worker starts where the caller is, with the file that the caller held. -/
theorem OpenState.Awaiting.spawns {opened : F} (h : s.Awaiting files home (some opened))
    (hact : openActs files .caller s (.spawn opened (files.namespaceId opened)) (.ok ()) s') :
    DoesOpen files home .caller s s' ∧ s'.Started files home (files.namespaceId opened) := by
  rcases hact with ⟨own, hown, rfl⟩
  obtain rfl := Option.some.inj (hown.symm.trans h.caller)
  rcases h.sound.held _ _ h.caller with ⟨hhome, hfile⟩
  have hleft : (s.hold .caller ⟨home, none, []⟩).Sound files home :=
    h.sound.hold_caller fun f hf => absurd hf (Option.not_mem_none f)
  have hsound : ((s.hold .caller ⟨home, none, []⟩).hold .worker
      ⟨home, some opened, []⟩).Sound files home :=
    hleft.hold_worker hhome hfile fun socket hmem => absurd hmem List.not_mem_nil
  refine ⟨⟨fun _ => hsound, fun own hown => ?_⟩, hsound, ⟨_, hold_same _, fun f hf => ?_⟩,
    h.received⟩
  · rw [h.worker] at hown
    exact absurd hown (by simp only [reduceCtorEq, not_false_eq_true])
  · rw [← Option.some.inj hf]

/-- What the caller hears is the first that the worker sent, if it hears anything. -/
theorem OpenState.Started.hears {ready : Option (Except BackendError Unit)}
    (h : s.Started files home namespaceId)
    (hact : openActs files .caller s .receiveReady ready s') :
    DoesOpen files home .caller s s' ∧ s'.Heard files home namespaceId ready := by
  cases ready with
  | none =>
      rcases hact with ⟨_, rfl⟩
      exact ⟨doesOpen_caller_same, h.sound, h.worker, fun m hm =>
        absurd hm (by simp only [reduceCtorEq, not_false_eq_true])⟩
  | some message =>
      rcases hact with ⟨hmessage, rfl⟩
      rw [h.received] at hmessage
      have hsound : ({ s with received := s.received + 1 } : OpenState F).Sound files home :=
        ⟨h.sound.distinct, h.sound.held, h.sound.caller, h.sound.worker⟩
      refine ⟨doesOpen_caller (fun _ => hsound) rfl rfl, hsound, h.worker, ?_⟩
      intro m hm
      rw [← hm, ← hmessage, List.head?_eq_getElem?]

/-- What was heard says how the caller ends. -/
theorem OpenState.Heard.ends {ready : Option (Except BackendError Unit)}
    (h : s.Heard files home namespaceId ready) :
    ((do Action.ofExcept (ready.getD (.error disconnected)); pure namespaceId :
      Opening F NamespaceId) ()).Assures (opening files) (openUndertaking files path home) .caller
        (callerEnds files home) s := by
  cases ready with
  | none => exact .done Heard.steady (fun _ _ => Or.inr (Or.inl rfl)) h
  | some message =>
      cases message with
      | error error => exact .done Heard.steady (fun _ hs => Or.inr (Or.inr (hs.sent _ rfl))) h
      | ok _ => exact .done Heard.steady (fun _ hs => hs) h

/-- A call that failed has no value. -/
theorem mapError_error_ne {α : Type} {f : IoError → BackendError} {error : IoError} (a : α) :
    (Except.error error : Except IoError α).mapError f ≠ .ok a := by
  simp only [Except.mapError, ne_eq, reduceCtorEq, not_false_eq_true]

/-- A call that did not fail has no error. -/
theorem mapError_ok_ne {α : Type} {f : IoError → BackendError} {a : α} (error : BackendError) :
    (Except.ok a : Except IoError α).mapError f ≠ .error error := by
  simp only [Except.mapError, ne_eq, reduceCtorEq, not_false_eq_true]

theorem openNamespace_assures (h : s.Awaiting files home none) :
    ((openNamespace path : Opening F F) ()).Assures (opening files)
      (openUndertaking files path home) .caller (fileOpened files path home) s := by
  unfold openNamespace
  have hfailed : ∀ {error : BackendError} {file : Option F} {s : OpenState F},
      s.Awaiting files home file →
        (Program.done (.error error, ()) :
          Program (OpenCall F) OpenAnswer (Except BackendError F × Unit)).Assures
            (opening files) (openUndertaking files path home) .caller
            (fileOpened files path home) s :=
    fun h => .done OpenState.Awaiting.steady (fun _ hs => ⟨_, hs⟩) h
  refine Action.assures_ask_bind OpenState.Awaiting.steady (fun _ _ => trivial) ?_ h
  rintro s (error | opened) s' h hact
  · obtain rfl : s' = s := hact
    exact ⟨doesOpen_caller_same, fun a ha => absurd ha (mapError_error_ne a),
      fun _ _ => hfailed h⟩
  rcases hact with ⟨hlive, own, hown, hpath, rfl⟩
  obtain rfl := Option.some.inj (hown.symm.trans h.caller)
  have hfile : ∀ f ∈ some opened, s.live f := fun f hf => Option.some.inj hf ▸ hlive
  rcases h.holds hfile with ⟨hdoes, hnext⟩
  refine ⟨hdoes, ?_, fun e he => absurd he (mapError_ok_ne e)⟩
  intro a ha
  obtain rfl := Except.ok.inj ha
  refine Action.assures_ask_bind OpenState.Awaiting.steady (fun _ _ => trivial) ?_ hnext
  rintro s (error | filesystem) s' h hact
  · obtain rfl : s' = s := hact
    exact ⟨doesOpen_caller_same, fun a ha => absurd ha (mapError_error_ne a),
      fun _ _ => hfailed h⟩
  rcases hact with ⟨_, rfl⟩
  refine ⟨doesOpen_caller_same, fun a _ => ?_, fun e he => absurd he (mapError_ok_ne e)⟩
  by_cases hmagic : a = nsfsMagic
  · rw [if_pos hmagic]
    exact .done OpenState.Awaiting.steady (fun _ hs => ⟨hs, hpath⟩) h
  · rw [if_neg hmagic]
    exact hfailed h

/-- The caller keeps to what it undertakes. -/
theorem open_assures (h : s.Awaiting files home none) :
    ((NetlinkBackend.open' path : Opening F NamespaceId) ()).Assures (opening files)
      (openUndertaking files path home) .caller (callerEnds files home) s := by
  unfold NetlinkBackend.open'
  refine Action.assures_bind (openNamespace_assures h) (fun opened _ s hopened => ?_)
    (fun error _ s hfailed => hfailed.elim fun _ hs => hs.ends)
  rcases hopened with ⟨h, hpath⟩
  refine Action.assures_ask_bind OpenState.Awaiting.steady (fun _ _ => trivial) ?_ h
  rintro s (error | answered) s' h hact
  · obtain rfl : s' = s := hact
    exact ⟨doesOpen_caller_same, fun a ha => absurd ha (mapError_error_ne a), fun _ _ => h.ends⟩
  rcases hact with ⟨rfl, rfl⟩
  refine ⟨doesOpen_caller_same, ?_, fun e he => absurd he (mapError_ok_ne e)⟩
  intro a ha
  obtain rfl := Except.ok.inj ha
  refine Action.assures_ask_bind OpenState.Awaiting.steady (fun _ hs => ⟨rfl, hpath, hs⟩) ?_ h
  rintro s (error | ⟨⟨⟩⟩) s' h hact
  · -- The file goes with what could not be started.
    rcases hact with ⟨own, hown, rfl⟩
    obtain rfl := Option.some.inj (hown.symm.trans h.caller)
    rcases h.holds fun f hf => absurd hf (Option.not_mem_none f) with ⟨hdoes, hnext⟩
    exact ⟨hdoes, fun a ha => absurd ha (mapError_error_ne a), fun _ _ => hnext.ends⟩
  rcases h.spawns hact with ⟨hdoes, hstarted⟩
  refine ⟨hdoes, fun _ _ => ?_, fun e he => absurd he (mapError_ok_ne e)⟩
  refine Action.assures_ask_bind OpenState.Started.steady (fun _ _ => trivial) ?_ hstarted
  intro s ready s' h hact
  rcases h.hears hact with ⟨hdoes, hheard⟩
  refine ⟨hdoes, ?_, fun e he => absurd he (by simp only [reduceCtorEq, not_false_eq_true])⟩
  intro a ha
  obtain rfl := Except.ok.inj ha
  refine Action.assures_ask_bind OpenState.Heard.steady (fun _ _ => trivial) ?_ hheard
  rintro s ⟨⟩ s' h rfl
  have hsound : ({ s with listening := false } : OpenState F).Sound files home :=
    ⟨h.sound.distinct, h.sound.held, h.sound.caller, h.sound.worker⟩
  have hends : ({ s with listening := false } : OpenState F).Heard files home
      (files.namespaceId opened) ready :=
    ⟨hsound, h.worker, h.sent⟩
  exact ⟨doesOpen_caller (fun _ => hsound) rfl rfl, fun _ _ => hends.ends,
    fun e he => absurd he (by simp only [reduceCtorEq, not_false_eq_true])⟩

end Caller

section Worker

variable {files} {path : String} {home file inside : F} {sockets : List (SocketKind × F)}
  {s s' : OpenState F} {transport : LinuxTransport}

/-- The worker keeps an assertion that neither the caller nor anything that happens by
    itself can end. -/
theorem steady_worker {P : OpenState F → Prop}
    (hhappens : ∀ s s', OpenHappens files s s' → P s → P s')
    (hcaller : ∀ s s', DoesOpen files home .caller s s' → P s → P s') :
    Steady (opening files) (openUndertaking files path home) .worker P := by
  rintro s s' (hstep | ⟨other, hother, hdoes⟩) h
  · exact hhappens s s' hstep h
  · cases other with
    | caller => exact hcaller s s' hdoes h
    | worker => exact absurd rfl hother

/-- The worker holds the file, and has not said anything yet. -/
structure OpenState.Working (files : Files F) (home file inside : F)
    (sockets : List (SocketKind × F)) (s : OpenState F) : Prop where
  sound : s.Sound files home
  worker : s.threads .worker = some ⟨inside, some file, sockets⟩
  sent : s.sent = []

theorem OpenState.Working.steady :
    Steady (opening files) (openUndertaking files path home) .worker
      (fun s => s.Working files home file inside sockets) := by
  refine steady_worker (fun s s' hstep h => ?_) (fun s s' hdoes h => ?_)
  · have hsound := h.sound.happens hstep
    rcases hstep.only with ⟨live, rfl⟩
    exact ⟨hsound, h.worker, h.sent⟩
  · rcases hdoes.2 _ h.worker with ⟨hworker, hsent⟩
    exact ⟨hdoes.1 h.sound, hworker, hsent.trans h.sent⟩

/-- The worker is about to be gone, and has not said that it serves. -/
structure OpenState.Failing (files : Files F) (home : F) (s : OpenState F) : Prop where
  sound : s.Sound files home
  worker : ∃ own, s.threads .worker = some own
  sent : .ok () ∉ s.sent

theorem OpenState.Failing.steady :
    Steady (opening files) (openUndertaking files path home) .worker
      (fun s => s.Failing files home) := by
  refine steady_worker (fun s s' hstep h => ?_) (fun s s' hdoes h => ?_)
  · have hsound := h.sound.happens hstep
    rcases hstep.only with ⟨live, rfl⟩
    exact ⟨hsound, h.worker, h.sent⟩
  · rcases h.worker with ⟨own, hown⟩
    rcases hdoes.2 own hown with ⟨hworker, hsent⟩
    refine ⟨hdoes.1 h.sound, ⟨own, hworker⟩, ?_⟩
    rw [hsent]
    exact h.sent

/-- The sockets of a transport, all of one namespace. -/
def transportSockets (file : F) (transport : LinuxTransport) : List (SocketKind × F) :=
  [(.route, file), (.ioctl, file)] ++ (if transport.ethtool then [(.ethtool, file)] else []) ++
    (if transport.wireless then [(.wireless, file)] else [])

/-- The worker serves in the namespace of the file, which it holds, and has said so. -/
structure OpenState.Serving (files : Files F) (home file : F) (transport : LinuxTransport)
    (s : OpenState F) : Prop where
  sound : s.Sound files home
  worker : s.threads .worker = some ⟨file, some file, transportSockets file transport⟩
  sent : s.sent = [.ok ()]
  opened : transport = .new (files.namespaceId file) transport.ethtool transport.wireless
    transport.initializationDiagnostics

theorem OpenState.Serving.steady :
    Steady (opening files) (openUndertaking files path home) .worker
      (fun s => s.Serving files home file transport) := by
  refine steady_worker (fun s s' hstep h => ?_) (fun s s' hdoes h => ?_)
  · have hsound := h.sound.happens hstep
    rcases hstep.only with ⟨live, rfl⟩
    exact ⟨hsound, h.worker, h.sent, h.opened⟩
  · rcases hdoes.2 _ h.worker with ⟨hworker, hsent⟩
    exact ⟨hdoes.1 h.sound, hworker, hsent.trans h.sent, h.opened⟩

/-- What the worker ends in: it is gone without having said that it serves, or serves. -/
def workerEnds (files : Files F) (home : F) : Option LinuxTransport → OpenState F → Prop
  | none, s => .ok () ∉ s.sent
  | some transport, s => ∃ file, s.Serving files home file transport

/-- What the worker does to itself alone. -/
theorem doesOpen_worker {own own' : Holding F} (hsound : s'.Sound files home)
    (hcaller : s'.threads .caller = s.threads .caller) (hsent : s.sent <+: s'.sent)
    (hreceived : s'.received = s.received) (hown : s.threads .worker = some own)
    (hown' : s'.threads .worker = some own') (hfile : ∀ f ∈ own'.file, f ∈ own.file) :
    DoesOpen files home .worker s s' :=
  ⟨fun _ => hsound, hcaller, hsent, hreceived, own, own', hown, hown', hfile⟩

namespace OpenState.Working

/-- A call that leaves the state as it is. -/
theorem quiet (h : s.Working files home file inside sockets) :
    DoesOpen files home .worker s s :=
  doesOpen_worker h.sound rfl (List.prefix_refl _) rfl h.worker h.worker fun _ hf => hf

theorem may (h : s.Working files home file inside sockets) {call : OpenCall F}
    (hpermits : (⟨inside, some file, sockets⟩ : Holding F).Permits path call) :
    MayOpen files path home .worker call s := by
  refine ⟨?_, _, h.worker, hpermits⟩
  rw [h.sent]
  exact List.not_mem_nil

/-- What the worker has may change, but not the file. -/
theorem hold {inside' : F} {sockets' : List (SocketKind × F)}
    (h : s.Working files home file inside sockets) (hinside : s.live inside')
    (hsockets : ∀ socket ∈ sockets', socket.2 = inside') :
    DoesOpen files home .worker s (s.hold .worker ⟨inside', some file, sockets'⟩) ∧
      (s.hold .worker ⟨inside', some file, sockets'⟩).Working files home file inside' sockets' := by
  have hsound : (s.hold .worker ⟨inside', some file, sockets'⟩).Sound files home :=
    h.sound.hold_worker hinside (h.sound.held _ _ h.worker).2 hsockets
  exact ⟨doesOpen_worker hsound (hold_worker_caller _) (List.prefix_refl _) rfl h.worker
    (hold_same _) fun _ hf => hf, hsound, hold_same _, h.sent⟩

end OpenState.Working

/-- What setting up ends in. -/
def workerSetUp (files : Files F) (home file : F) (out : Except BackendError Unit × Unit)
    (s : OpenState F) : Prop :=
  match out.1 with
  | .ok () => s.Working files home file file []
  | .error _ => ∃ inside, s.Working files home file inside []

theorem workerSetUp_steady {out : Except BackendError Unit × Unit} :
    Steady (opening files) (openUndertaking files path home) .worker
      (workerSetUp files home file out) := by
  rcases out with ⟨error | ⟨⟨⟩⟩, ⟨⟩⟩
  · rintro s s' hstep ⟨inside, h⟩
    exact ⟨inside, OpenState.Working.steady s s' hstep h⟩
  · exact OpenState.Working.steady

/-- The worker is inside if it was already, or enters. -/
theorem enterNamespace_assures (hpath : path = NetlinkBackend.ownNamespace → file = home)
    (h : s.Working files home file home []) :
    ((enterNamespace file (files.namespaceId file) (files.namespaceId home) :
      Opening F Unit) ()).Assures (opening files) (openUndertaking files path home) .worker
        (workerSetUp files home file) s := by
  unfold enterNamespace
  by_cases hsame : files.namespaceId home = files.namespaceId file
  · rw [if_pos hsame]
    -- Two files that are there at once have two identities.
    rcases h.sound.held _ _ h.worker with ⟨hhome, hfile⟩
    have heq : home = file := h.sound.distinct _ _ hhome (hfile file rfl) hsame
    subst heq
    exact .done OpenState.Working.steady (fun _ hs => hs) h
  · rw [if_neg hsame]
    have hne : home ≠ file := fun habs => hsame (by rw [habs])
    refine Action.assures_ask OpenState.Working.steady (fun s hs => hs.may ?_) ?_ h
    · exact ⟨rfl, hne, rfl, fun habs => hne (hpath habs).symm⟩
    · rintro s (error | ⟨⟨⟩⟩) s' h hact
      · obtain rfl : s' = s := hact
        exact ⟨h.quiet, .done workerSetUp_steady (fun _ hs => hs) ⟨home, h⟩⟩
      · rcases hact with ⟨_, own, hown, rfl⟩
        obtain rfl := Option.some.inj (hown.symm.trans h.worker)
        have hlive := (h.sound.held _ _ h.worker).2 file rfl
        have hnone : ∀ socket ∈ ([] : List (SocketKind × F)), socket.2 = file :=
          fun socket hmem => absurd hmem List.not_mem_nil
        rcases h.hold hlive hnone with ⟨hdoes, hnext⟩
        exact ⟨hdoes, .done workerSetUp_steady (fun _ hs => hs) hnext⟩

theorem setup_assures (hpath : path = NetlinkBackend.ownNamespace → file = home)
    (h : s.Working files home file home []) :
    ((setup file (files.namespaceId file) : Opening F Unit) ()).Assures (opening files)
      (openUndertaking files path home) .worker (workerSetUp files home file) s := by
  unfold setup
  refine Action.assures_ask_bind OpenState.Working.steady (fun s hs => hs.may (Or.inr rfl)) ?_ h
  rintro s (error | current) s' h hact
  · obtain rfl : s' = s := hact
    exact ⟨h.quiet, fun a ha => absurd ha (mapError_error_ne a), fun _ _ =>
      .done workerSetUp_steady (fun _ hs => hs) ⟨home, h⟩⟩
  rcases hact with ⟨own, hown, rfl, rfl⟩
  obtain rfl := Option.some.inj (hown.symm.trans h.worker)
  refine ⟨h.quiet, ?_, fun e he => absurd he (mapError_ok_ne e)⟩
  intro a ha
  obtain rfl := Except.ok.inj ha
  refine Action.assures_bind (enterNamespace_assures hpath h) ?_ ?_
  · rintro ⟨⟩ ⟨⟩ s h
    refine Action.assures_ask OpenState.Working.steady (fun s hs => hs.may (Or.inr rfl)) ?_ h
    rintro s (error | ⟨⟨⟩⟩) s' h rfl
    · exact ⟨h.quiet, .done workerSetUp_steady (fun _ hs => hs) ⟨file, h⟩⟩
    · exact ⟨h.quiet, .done workerSetUp_steady (fun _ hs => hs) h⟩
  · rintro error ⟨⟩ s h
    exact .done workerSetUp_steady (fun _ hs => hs) h

end Worker

section Serving

variable {files} {path : String} {home file inside : F} {sockets : List (SocketKind × F)}
  {s s' : OpenState F}

/-- The socket that was opened, if one was. -/
def openedSocket (kind : SocketKind) (file : F) : Except IoError Unit → List (SocketKind × F)
  | .ok () => [(kind, file)]
  | .error _ => []

/-- Asking for a socket leaves one more or not, inside. -/
theorem OpenState.Working.socket {kind : SocketKind} {answer : Except IoError Unit}
    (h : s.Working files home file file sockets)
    (hact : openActs files .worker s (.socket kind) answer s') :
    DoesOpen files home .worker s s' ∧
      s'.Working files home file file (sockets ++ openedSocket kind file answer) := by
  rcases answer with error | ⟨⟨⟩⟩
  · obtain rfl : s' = s := hact
    unfold openedSocket
    rw [List.append_nil]
    exact ⟨h.quiet, h⟩
  · rcases hact with ⟨own, hown, rfl⟩
    obtain rfl := Option.some.inj (hown.symm.trans h.worker)
    have hinside : ∀ socket ∈ sockets ++ [(kind, file)], socket.2 = file := by
      intro socket hmem
      rcases List.mem_append.mp hmem with hmem | hmem
      · exact h.sound.worker _ h.worker socket hmem
      · rw [List.mem_singleton.mp hmem]
    exact h.hold (h.sound.held _ _ h.worker).1 hinside

/-- What opening the sockets ends in. -/
def transportOpened (files : Files F) (home file : F)
    (out : Except BackendError LinuxTransport × Unit) (s : OpenState F) : Prop :=
  match out.1 with
  | .ok transport => s.Working files home file file (transportSockets file transport) ∧
      transport = .new (files.namespaceId file) transport.ethtool transport.wireless
        transport.initializationDiagnostics
  | .error _ => ∃ inside sockets, s.Working files home file inside sockets

theorem transportOpened_steady {out : Except BackendError LinuxTransport × Unit} :
    Steady (opening files) (openUndertaking files path home) .worker
      (transportOpened files home file out) := by
  rcases out with ⟨error | transport, ⟨⟩⟩
  · rintro s s' hstep ⟨inside, sockets, h⟩
    exact ⟨inside, sockets, OpenState.Working.steady s s' hstep h⟩
  · rintro s s' hstep ⟨h, heq⟩
    exact ⟨OpenState.Working.steady s s' hstep h, heq⟩

/-- A call of the worker inside that it cannot do without. -/
theorem required_assures {call : OpenCall F} {sockets' : List (SocketKind × F)}
    {next : Unit → Opening F LinuxTransport} {read : OpenAnswer call → Except BackendError Unit}
    (hpermits : (⟨file, some file, sockets⟩ : Holding F).Permits path call)
    (hdoes : ∀ s answer s', s.Working files home file file sockets →
      openActs files .worker s call answer s' → DoesOpen files home .worker s s' ∧
        (read answer = .ok () → s'.Working files home file file sockets') ∧
          ∃ sockets, s'.Working files home file file sockets)
    (hnext : ∀ s, s.Working files home file file sockets' →
      (next () ()).Assures (opening files) (openUndertaking files path home) .worker
        (transportOpened files home file) s)
    (h : s.Working files home file file sockets) :
    ((Action.ask call read >>= next) ()).Assures (opening files)
      (openUndertaking files path home) .worker (transportOpened files home file) s := by
  refine Action.assures_ask_bind OpenState.Working.steady (fun s hs => hs.may hpermits) ?_ h
  intro s answer s' h hact
  rcases hdoes s answer s' h hact with ⟨hown, hok, herror⟩
  refine ⟨hown, ?_, fun _ _ => .done transportOpened_steady (fun _ hs => hs) ⟨file, herror⟩⟩
  rintro ⟨⟩ ha
  exact hnext s' (hok ha)

/-- The route socket and the one for ioctls. -/
theorem socket_required {kind : SocketKind} {error : IoError → BackendError} (s : OpenState F)
    (answer : Except IoError Unit) (s' : OpenState F)
    (h : s.Working files home file file sockets)
    (hact : openActs files .worker s (.socket kind) answer s') :
    DoesOpen files home .worker s s' ∧
      (answer.mapError error = .ok () →
        s'.Working files home file file (sockets ++ [(kind, file)])) ∧
      ∃ sockets, s'.Working files home file file sockets := by
  rcases h.socket hact with ⟨hdoes, hnext⟩
  refine ⟨hdoes, fun hok => ?_, _, hnext⟩
  rcases answer with failed | ⟨⟨⟩⟩
  · exact absurd hok (mapError_error_ne ())
  · exact hnext

theorem configure_required {option : RouteOption} {error : IoError → BackendError}
    (s : OpenState F) (answer : Except IoError Unit) (s' : OpenState F)
    (h : s.Working files home file file sockets)
    (hact : openActs files .worker s (.configure option) answer s') :
    DoesOpen files home .worker s s' ∧
      (answer.mapError error = .ok () → s'.Working files home file file sockets) ∧
      ∃ sockets, s'.Working files home file file sockets := by
  obtain rfl : s' = s := hact
  exact ⟨h.quiet, fun _ => h, _, h⟩

/-- Every socket of the transport is opened inside. -/
theorem openTransport_assures (h : s.Working files home file file []) :
    ((openTransport (files.namespaceId file) : Opening F LinuxTransport) ()).Assures
      (opening files) (openUndertaking files path home) .worker
        (transportOpened files home file) s := by
  unfold openTransport
  refine required_assures rfl socket_required (fun s h => ?_) h
  refine required_assures (Or.inr rfl) configure_required (fun s h => ?_) h
  refine required_assures (Or.inr rfl) configure_required (fun s h => ?_) h
  refine required_assures (Or.inr rfl) configure_required (fun s h => ?_) h
  refine required_assures rfl socket_required (fun s h => ?_) h
  -- The other two are opened or noted as missing.
  refine Action.assures_ask_bind OpenState.Working.steady (fun s hs => hs.may rfl) ?_ h
  intro s ethtool s' h hact
  rcases h.socket hact with ⟨hdoes, hnext⟩
  refine ⟨hdoes, ?_, fun e he => absurd he (by simp only [reduceCtorEq, not_false_eq_true])⟩
  intro a ha
  obtain rfl := Except.ok.inj ha
  refine Action.assures_ask_bind OpenState.Working.steady (fun s hs => hs.may rfl) ?_ hnext
  intro s wireless s' h hact
  rcases h.socket hact with ⟨hdoes, hnext⟩
  refine ⟨hdoes, ?_, fun e he => absurd he (by simp only [reduceCtorEq, not_false_eq_true])⟩
  intro a ha
  obtain rfl := Except.ok.inj ha
  refine .done transportOpened_steady (fun _ hs => hs) ⟨?_, rfl⟩
  rcases ethtool with _ | ⟨⟨⟩⟩ <;> rcases wireless with _ | ⟨⟨⟩⟩ <;> exact hnext

/-- What is closed of a worker that is about to be gone. -/
theorem OpenState.Failing.hold {own : Holding F} (own' : Holding F) (h : s.Failing files home)
    (hown : s.threads .worker = some own) (hhome : own'.home = own.home)
    (hfile : ∀ f ∈ own'.file, f ∈ own.file) (hsockets : own'.sockets ⊆ own.sockets) :
    DoesOpen files home .worker s (s.hold .worker own') ∧
      (s.hold .worker own').Failing files home := by
  rcases h.sound.held _ _ hown with ⟨hlive, hlives⟩
  have hsound : (s.hold .worker own').Sound files home := by
    refine h.sound.hold_worker ?_ (fun f hf => hlives f (hfile f hf)) fun socket hmem => ?_
    · rw [hhome]
      exact hlive
    · rw [hhome]
      exact h.sound.worker _ hown socket (hsockets hmem)
  exact ⟨doesOpen_worker hsound (hold_worker_caller _) (List.prefix_refl _) rfl hown (hold_same _)
    hfile, hsound, ⟨_, hold_same _⟩, h.sent⟩

theorem OpenState.Failing.may {call : OpenCall F} (h : s.Failing files home)
    (hcall : ∀ own : Holding F, own.Permits path call) :
    MayOpen files path home .worker call s := by
  rcases h.worker with ⟨own, hown⟩
  exact ⟨h.sent, own, hown, hcall own⟩

/-- A worker that has not said that it serves may close its file. -/
theorem closeFile_assures {p : Program (OpenCall F) OpenAnswer (Option LinuxTransport)}
    (hp : ∀ s, s.Failing files home → p.Assures (opening files) (openUndertaking files path home)
      .worker (workerEnds files home) s) (h : s.Failing files home) :
    (Program.call .closeFile fun _ => p).Assures (opening files) (openUndertaking files path home)
      .worker (workerEnds files home) s := by
  refine .call OpenState.Failing.steady (fun s hs => hs.may fun _ => Or.inl rfl) ?_ h
  rintro s ⟨⟩ s' hs ⟨own, hown, rfl⟩
  rcases hs.hold { own with file := none } hown rfl
    (fun f hf => absurd hf (Option.not_mem_none f)) (List.Subset.refl _) with ⟨hdoes, hnext⟩
  exact ⟨hdoes, hp _ hnext⟩

/-- And some of its sockets. -/
theorem closeSockets_assures {kinds : List SocketKind}
    {p : Program (OpenCall F) OpenAnswer (Option LinuxTransport)}
    (hp : ∀ s, s.Failing files home → p.Assures (opening files) (openUndertaking files path home)
      .worker (workerEnds files home) s) (h : s.Failing files home) :
    (Program.call (.closeSockets kinds) fun _ => p).Assures (opening files)
      (openUndertaking files path home) .worker (workerEnds files home) s := by
  refine .call OpenState.Failing.steady (fun s hs => hs.may fun _ => Or.inl rfl) ?_ h
  rintro s ⟨⟩ s' hs ⟨own, hown, rfl⟩
  rcases hs.hold { own with sockets := own.sockets.filter fun socket => socket.1 ∉ kinds }
    hown rfl (fun _ hf => hf) (List.filter_subset_self _) with ⟨hdoes, hnext⟩
  exact ⟨hdoes, hp _ hnext⟩

/-- A worker that is gone has not said that it serves. -/
theorem gone_assures (h : s.Failing files home) :
    (Program.done none : Program (OpenCall F) OpenAnswer _).Assures (opening files)
      (openUndertaking files path home) .worker (workerEnds files home) s :=
  .done OpenState.Failing.steady (fun _ h => h.sent) h

theorem leaveWorker_assures (h : s.Failing files home) :
    (leaveWorker : Program (OpenCall F) OpenAnswer _).Assures (opening files)
      (openUndertaking files path home) .worker (workerEnds files home) s := by
  refine closeSockets_assures (fun _ h => ?_) h
  refine closeFile_assures (fun _ h => ?_) h
  exact closeSockets_assures (fun _ h => gone_assures h) h

/-- What the worker says is sent, if anybody is there to receive it. -/
theorem OpenState.Working.says {message : Except BackendError Unit} {accepted : Bool}
    (h : s.Working files home file inside sockets)
    (hact : openActs files .worker s (.sendReady message) accepted s') :
    DoesOpen files home .worker s s' ∧ s'.Sound files home ∧
      s'.threads .worker = some ⟨inside, some file, sockets⟩ ∧
      s'.sent = if accepted then [message] else [] := by
  rcases hact with ⟨_, _, rfl⟩
  cases accepted with
  | false => exact ⟨h.quiet, h.sound, h.worker, h.sent⟩
  | true =>
      have hsound : ({ s with sent := s.sent ++ [message] } : OpenState F).Sound files home :=
        ⟨h.sound.distinct, h.sound.held, h.sound.caller, h.sound.worker⟩
      have hsent : s.sent ++ [message] = [message] := by rw [h.sent, List.nil_append]
      exact ⟨doesOpen_worker hsound rfl (List.prefix_append _ _) rfl h.worker h.worker
        fun _ hf => hf, hsound, h.worker, hsent⟩

/-- A worker that could not be set up says so and is gone. -/
theorem failWorker_assures {error : BackendError} (h : s.Working files home file inside sockets) :
    (failWorker error : Program (OpenCall F) OpenAnswer _).Assures (opening files)
      (openUndertaking files path home) .worker (workerEnds files home) s := by
  refine .call OpenState.Working.steady (fun s hs => hs.may (Or.inr rfl)) ?_ h
  intro s accepted s' h hact
  rcases h.says hact with ⟨hdoes, hsound, hworker, hsent⟩
  refine ⟨hdoes, closeFile_assures (fun _ h => gone_assures h) ⟨hsound, ⟨_, hworker⟩, ?_⟩⟩
  rw [hsent]
  cases accepted with
  | false => exact List.not_mem_nil
  | true =>
      intro habs
      exact absurd (List.mem_singleton.mp habs) (by simp only [reduceCtorEq, not_false_eq_true])

/-- What a transport that could not be opened leaves is closed. -/
theorem failedTransport_assures {kinds : List SocketKind} {error : BackendError}
    (h : s.Working files home file inside sockets) :
    (Program.call (.closeSockets kinds) fun _ => failWorker error :
      Program (OpenCall F) OpenAnswer _).Assures (opening files)
        (openUndertaking files path home) .worker (workerEnds files home) s := by
  refine .call OpenState.Working.steady (fun s hs => hs.may (Or.inl rfl)) ?_ h
  rintro s ⟨⟩ s' hs ⟨own, hown, rfl⟩
  obtain rfl := Option.some.inj (hown.symm.trans hs.worker)
  have hinside : ∀ socket ∈ sockets.filter fun socket => socket.1 ∉ kinds, socket.2 = inside :=
    fun socket hmem => hs.sound.worker _ hs.worker socket (List.mem_of_mem_filter hmem)
  rcases hs.hold (hs.sound.held _ _ hs.worker).1 hinside with ⟨hdoes, hnext⟩
  exact ⟨hdoes, failWorker_assures hnext⟩

/-- The worker keeps to what it undertakes. -/
theorem startWorker_assures (hpath : path = NetlinkBackend.ownNamespace → file = home)
    (h : s.Working files home file home []) :
    (startWorker file (files.namespaceId file)).Assures (opening files)
      (openUndertaking files path home) .worker (workerEnds files home) s := by
  unfold startWorker
  refine Program.Assures.bind ((setup_assures hpath h).mono fun out s hout => ?_)
  rcases out with ⟨error | ⟨⟨⟩⟩, ⟨⟩⟩
  · rcases hout with ⟨inside, h⟩
    exact failWorker_assures h
  refine Program.Assures.bind ((openTransport_assures hout).mono fun out s hout => ?_)
  rcases out with ⟨error | transport, ⟨⟩⟩
  · rcases hout with ⟨inside, sockets, h⟩
    exact failedTransport_assures h
  rcases hout with ⟨h, hopened⟩
  refine .call (P := fun s => s.Working files home file file (transportSockets file transport))
    OpenState.Working.steady (fun s hs => hs.may (Or.inr rfl)) ?_ h
  intro s accepted s' h hact
  rcases h.says hact with ⟨hdoes, hsound, hworker, hsent⟩
  refine ⟨hdoes, ?_⟩
  cases accepted with
  | false =>
      refine leaveWorker_assures ⟨hsound, ⟨_, hworker⟩, ?_⟩
      rw [hsent]
      exact List.not_mem_nil
  | true =>
      exact .done OpenState.Serving.steady (fun _ hs => ⟨file, hs⟩)
        ⟨hsound, hworker, hsent, hopened⟩

end Serving

section Runs

variable {files} {path : String} {home : F} {start : OpenState F}
  {labels : List (Option (OpenThread × Event (OpenCall F) OpenAnswer))}
  {sys : Threads OpenThread (OpenState F) (OpenCall F) OpenAnswer OpenResult}

/-- What the threads end in. -/
def openEnds (files : Files F) (home : F) :
    (thread : OpenThread) → OpenResult thread → OpenState F → Prop
  | .caller => callerEnds files home
  | .worker => workerEnds files home

/-- The calling thread is about to open a namespace. -/
def openingThreads (path : String) (start : OpenState F) :
    Threads OpenThread (OpenState F) (OpenCall F) OpenAnswer OpenResult where
  shared := start
  left
    | .caller => some (NetlinkBackend.open' path ())
    | .worker => none

/-- A call that starts a thread starts the worker, on a file and its identity. -/
theorem openStarts_some {call : OpenCall F} {answer : OpenAnswer call} {thread : OpenThread}
    {p : Program (OpenCall F) OpenAnswer (OpenResult thread)}
    (h : openStarts ⟨call, answer⟩ = some ⟨thread, p⟩) :
    ∃ file namespaceId, call = .spawn file namespaceId ∧ HEq answer (Except.ok () :
      Except IoError Unit) ∧ (⟨thread, p⟩ : Σ thread, Program (OpenCall F) OpenAnswer
        (OpenResult thread)) = ⟨.worker, startWorker file namespaceId⟩ := by
  cases call with
  | spawn file namespaceId =>
      rcases answer with error | ⟨⟨⟩⟩
      · exact absurd h (by simp only [openStarts, reduceCtorEq, not_false_eq_true])
      · exact ⟨file, namespaceId, rfl, HEq.rfl, (Option.some.inj h).symm⟩
  | _ => exact absurd h (by simp only [openStarts, reduceCtorEq, not_false_eq_true])

/-- A worker that is started keeps to what it undertakes. -/
theorem openStarts_assures (thread : OpenThread) (s : OpenState F) (call : OpenCall F)
    (answer : OpenAnswer call) (s' : OpenState F) (other : OpenThread)
    (p : Program (OpenCall F) OpenAnswer (OpenResult other))
    (hmay : (openUndertaking files path home).may thread call s)
    (hact : (opening files).acts thread s call answer s')
    (hstarts : (opening files).starts ⟨call, answer⟩ = some ⟨other, p⟩) :
    p.Assures (opening files) (openUndertaking files path home) other
      (openEnds files home other) s' := by
  rcases openStarts_some hstarts with ⟨file, namespaceId, rfl, hanswer, heq⟩
  obtain rfl := eq_of_heq hanswer
  cases heq
  cases thread with
  | worker =>
      rcases hmay with ⟨_, _, _, habs⟩
      exact habs.elim
  | caller =>
      rcases hmay with ⟨rfl, hpath, h⟩
      rcases hact with ⟨own, hown, rfl⟩
      obtain rfl := Option.some.inj (hown.symm.trans h.caller)
      rcases h.sound.held _ _ h.caller with ⟨hhome, hfile⟩
      have hleft : (s.hold .caller ⟨home, none, []⟩).Sound files home :=
        h.sound.hold_caller fun f hf => absurd hf (Option.not_mem_none f)
      exact startWorker_assures hpath
        ⟨hleft.hold_worker hhome hfile fun socket hmem => absurd hmem List.not_mem_nil,
          OpenState.hold_same _, h.sent⟩

theorem openingThreads_assured (h : start.Awaiting files home none) :
    Threads.Assured (opening files) (openUndertaking files path home) (openEnds files home)
      (openingThreads path start) := by
  intro thread p hp
  cases thread with
  | caller =>
      rw [← Option.some.inj hp]
      exact open_assures h
  | worker => exact absurd hp (by simp only [openingThreads, reduceCtorEq, not_false_eq_true])

theorem opening_assured (h : start.Awaiting files home none)
    (hreaches : Threads.Reaches (opening files) (openingThreads path start) labels sys) :
    Threads.Assured (opening files) (openUndertaking files path home) (openEnds files home) sys :=
  hreaches.assures openStarts_assures (openingThreads_assured h)

theorem opening_sound (h : start.Awaiting files home none)
    (hreaches : Threads.Reaches (opening files) (openingThreads path start) labels sys) :
    sys.shared.Sound files home := by
  have hassured : Threads.Assured (opening files) (openUndertaking files path home)
      (openEnds files home) (openingThreads path start) := openingThreads_assured h
  refine hreaches.keeps openStarts_assures hassured (fun thread s s' hdoes hs => ?_)
    (fun s s' hstep hs => hs.happens hstep) h.sound
  cases thread with
  | caller => exact hdoes.1 hs
  | worker => exact hdoes.1 hs

/-- Where no thread is started, the caller leaves the worker alone. -/
theorem openActs_caller {s s' : OpenState F} {call : OpenCall F} {answer : OpenAnswer call}
    (hact : openActs files .caller s call answer s') (hstarts : openStarts ⟨call, answer⟩ = none) :
    s'.threads .worker = s.threads .worker := by
  cases call with
  | openFile _ =>
      rcases answer with error | file
      · rw [show s' = s from hact]
      · rcases hact with ⟨_, own, _, _, rfl⟩
        exact OpenState.hold_caller_worker _
  | spawn _ _ =>
      rcases answer with error | ⟨⟨⟩⟩
      · rcases hact with ⟨own, _, rfl⟩
        exact OpenState.hold_caller_worker _
      · exact absurd hstarts (by simp only [openStarts, reduceCtorEq, not_false_eq_true])
  | fileSystem _ | metadata _ =>
      rcases answer with error | answered
      · rw [show s' = s from hact]
      · rcases hact with ⟨_, rfl⟩
        rfl
  | ownMetadata =>
      rcases answer with error | answered
      · rw [show s' = s from hact]
      · rcases hact with ⟨_, _, _, rfl⟩
        rfl
  | setns _ =>
      rcases answer with error | ⟨⟨⟩⟩
      · rw [show s' = s from hact]
      · rcases hact with ⟨_, own, _, rfl⟩
        exact OpenState.hold_caller_worker _
  | socket _ =>
      rcases answer with error | ⟨⟨⟩⟩
      · rw [show s' = s from hact]
      · rcases hact with ⟨own, _, rfl⟩
        exact OpenState.hold_caller_worker _
  | receiveReady =>
      rcases answer with _ | message
      · rcases hact with ⟨_, rfl⟩
        rfl
      · rcases hact with ⟨_, rfl⟩
        rfl
  | dropReady | buildRuntime | configure _ =>
      obtain rfl := hact
      rfl
  | sendReady _ =>
      rcases hact with ⟨_, _, rfl⟩
      cases answer with
      | false => rfl
      | true => rfl
  | closeFile | closeSockets _ =>
      rcases hact with ⟨own, _, rfl⟩
      exact OpenState.hold_caller_worker _

/-- A worker that was not started is not there. -/
theorem opening_unstarted (h : start.threads .worker = none)
    (hreaches : Threads.Reaches (opening files) (openingThreads path start) labels sys)
    (hnone : sys.left .worker = none) : sys.shared.threads .worker = none := by
  induction hreaches with
  | start => exact h
  | step hbefore hstep ih =>
      cases hstep with
      | @call thread call k answer s' hleft hact hstarts =>
          dsimp only at hnone
          cases thread with
          | worker =>
              rw [Function.update_self] at hnone
              exact absurd hnone (by simp only [reduceCtorEq, not_false_eq_true])
          | caller =>
              rw [Function.update_of_ne (by decide)] at hnone
              exact (openActs_caller hact hstarts).trans (ih hnone)
      | @start thread other call k answer s' p hleft hact hstarts =>
          rcases openStarts_some hstarts with ⟨file, namespaceId, rfl, _, heq⟩
          cases heq
          dsimp only at hnone
          rw [Function.update_self] at hnone
          exact absurd hnone (by simp only [reduceCtorEq, not_false_eq_true])
      | happen hhappens =>
          rcases hhappens.only with ⟨live, rfl⟩
          exact ih hnone

/-- Opening a namespace never moves the calling thread, and gives it no socket. The
    worker alone enters a namespace: that of the file, if it is not in it, and before
    it has a socket; so not where the calling thread opens its own. Every socket is
    opened in the namespace of the file, and the sockets are all of the namespace that
    the worker is in. It holds the file until it closes it because it is about to be
    gone; a worker that comes to serve holds the file. -/
theorem open_confined (files : Files F) (path : String) (home : F) (start : OpenState F)
    (hstart : start.Awaiting files home none)
    (labels : List (Option (OpenThread × Event (OpenCall F) OpenAnswer)))
    (sys : Threads OpenThread (OpenState F) (OpenCall F) OpenAnswer OpenResult)
    (hreaches : Threads.Reaches (opening files) (openingThreads path start) labels sys) :
    (∃ file, sys.shared.threads .caller = some ⟨home, file, []⟩) ∧
    (∀ own, sys.shared.threads .worker = some own →
      ∀ socket ∈ own.sockets, socket.2 = own.home) ∧
    (∀ transport, sys.left .worker = some (.done (some transport)) → ∃ file,
      sys.shared.threads .worker = some ⟨file, some file, transportSockets file transport⟩) ∧
    ∀ (thread : OpenThread) (call : OpenCall F) k, sys.left thread = some (.call call k) →
      (∀ file, call = .setns file → thread = .worker ∧ path ≠ NetlinkBackend.ownNamespace ∧
        ∃ own, sys.shared.threads .worker = some own ∧ own.file = some file ∧
          own.home ≠ file ∧ own.sockets = []) ∧
      (∀ kind, call = .socket kind → thread = .worker ∧
        ∃ own, sys.shared.threads .worker = some own ∧ own.file = some own.home) ∧
      (thread = .worker → call.closes = false →
        ∃ own, sys.shared.threads .worker = some own ∧ own.file.isSome = true) := by
  have hsound := opening_sound hstart hreaches
  refine ⟨hsound.caller, hsound.worker, fun transport hserves => ?_, fun thread call k hleft => ?_⟩
  · rcases opening_assured hstart hreaches .worker _ hserves sys.shared .refl with ⟨file, hserving⟩
    exact ⟨file, hserving.worker⟩
  have hmay : MayOpen files path home thread call sys.shared :=
    (opening_assured hstart hreaches thread _ hleft sys.shared .refl).1
  cases thread with
  | caller =>
      refine ⟨fun file hcall => ?_, fun kind hcall => ?_, fun habs => ?_⟩
      · subst hcall
        exact hmay.elim
      · subst hcall
        exact hmay.elim
      · exact absurd habs (by decide)
  | worker =>
      rcases hmay with ⟨_, own, hown, hpermits⟩
      refine ⟨fun file hcall => ?_, fun kind hcall => ?_, fun _ hcall => ⟨own, hown, ?_⟩⟩
      · subst hcall
        rcases hpermits with ⟨hfile, hne, hnone, hpath⟩
        exact ⟨rfl, hpath, own, hown, hfile, hne, hnone⟩
      · subst hcall
        exact ⟨rfl, own, hown, hpermits⟩
      · exact hpermits.holds hcall

/-- A handle is returned only for a worker that serves in the namespace of the file,
    with a transport that has just been opened and all its sockets inside; and the
    identity of the handle is that of no other file as long as the worker is there. No
    worker serves behind an error, but for one that came too late. -/
theorem open_returned (files : Files F) (path : String) (home : F) (start : OpenState F)
    (hstart : start.Awaiting files home none)
    (labels : List (Option (OpenThread × Event (OpenCall F) OpenAnswer)))
    (sys : Threads OpenThread (OpenState F) (OpenCall F) OpenAnswer OpenResult)
    (hreaches : Threads.Reaches (opening files) (openingThreads path start) labels sys)
    (result : Except BackendError NamespaceId)
    (hresult : sys.left .caller = some (.done (result, ()))) :
    (∀ namespaceId, result = .ok namespaceId → ∃ file transport,
      sys.left .worker = some (.done (some transport)) ∧
      sys.shared.threads .worker = some ⟨file, some file, transportSockets file transport⟩ ∧
      transport = .new namespaceId transport.ethtool transport.wireless
        transport.initializationDiagnostics ∧
      sys.shared.live file ∧ files.namespaceId file = namespaceId ∧
      ∀ other, sys.shared.live other → files.namespaceId other = namespaceId → other = file) ∧
    ∀ error, result = .error error → error ≠ disconnected →
      ∀ transport, sys.left .worker ≠ some (.done (some transport)) := by
  have hassured := opening_assured hstart hreaches
  have hends : callerEnds files home (result, ()) sys.shared :=
    hassured .caller _ hresult sys.shared .refl
  refine ⟨fun namespaceId hok => ?_, fun error herror hkept transport hserves => ?_⟩
  · subst hok
    rcases hends with ⟨hsound, ⟨own, hown, hnamed⟩, hsent⟩
    have hready : .ok () ∈ sys.shared.sent := List.mem_of_mem_head? (hsent _ rfl)
    -- The worker has said that it serves, so there is no call left before it does.
    cases hleft : sys.left .worker with
    | none =>
        rw [opening_unstarted hstart.worker hreaches hleft] at hown
        exact absurd hown (by simp only [reduceCtorEq, not_false_eq_true])
    | some p =>
        have hp := hassured .worker p hleft
        cases p with
        | fault => exact hp.elim
        | call call k => exact absurd hready (hp sys.shared .refl).1.1
        | done out =>
            have hout : workerEnds files home out sys.shared := hp sys.shared .refl
            cases out with
            | none => exact absurd hready hout
            | some transport =>
                rcases hout with ⟨file, hserving⟩
                obtain rfl := Option.some.inj (hown.symm.trans hserving.worker)
                have hfile : files.namespaceId file = namespaceId := hnamed file rfl
                have hlive := (hsound.held _ _ hown).1
                refine ⟨file, transport, rfl, hown, ?_, hlive, hfile, fun other hother heq => ?_⟩
                · rw [← hfile]
                  exact hserving.opened
                · exact hsound.distinct other file hother hlive (heq.trans hfile.symm)
  · subst herror
    rcases hassured .worker _ hserves sys.shared .refl with ⟨file, hserving⟩
    rcases hends with hnone | hlate | hfailed
    · rw [hserving.worker] at hnone
      exact absurd hnone (by simp only [reduceCtorEq, not_false_eq_true])
    · exact hkept hlate
    · rw [hserving.sent] at hfailed
      exact absurd hfailed (by simp)

end Runs

section Example

/-- Two namespaces: the one the calling thread is in, and another. -/
def lanFiles : Files Bool where
  namespaceId file := ⟨4, if file then 2 else 1⟩
  filesystem _ := nsfsMagic
  isNetwork _ := true

def lanPath : String := "/run/netns/lan"

/-- Before the other one is opened. -/
def lanStart : OpenState Bool where
  live _ := True
  threads
    | .caller => some ⟨false, none, []⟩
    | .worker => none
  sent := []
  received := 0
  listening := true

theorem lanStart_awaiting : lanStart.Awaiting lanFiles false none where
  sound :=
    { distinct := fun f g _ _ heq => by
        cases f <;> cases g <;> first | rfl | exact absurd heq (by decide)
      held := fun _ own _ => ⟨trivial, fun _ _ => trivial⟩
      caller := ⟨none, rfl⟩
      worker := fun own hown => absurd hown (by simp [lanStart]) }
  caller := rfl
  worker := rfl
  sent := rfl
  received := rfl

/-- What the calling thread asks before there is a worker. -/
def lanOpened : List (Event (OpenCall Bool) OpenAnswer) :=
  [⟨.openFile lanPath, .ok true⟩, ⟨.fileSystem true, .ok nsfsMagic⟩,
    ⟨.metadata true, .ok ⟨4, 2⟩⟩]

/-- And with the worker there. -/
def lanHeard : List (Event (OpenCall Bool) OpenAnswer) :=
  [⟨.receiveReady, some (.ok ())⟩, ⟨.dropReady, ()⟩]

/-- What the worker asks before it enters. -/
def lanFound : List (Event (OpenCall Bool) OpenAnswer) := [⟨.ownMetadata, .ok ⟨4, 1⟩⟩]

/-- A kernel without wireless devices. -/
def lanUnsupported : IoError := { errno := some 93, interrupted := false, message := "unsupported" }

/-- What the worker asks then. -/
def lanEntered : List (Event (OpenCall Bool) OpenAnswer) :=
  [⟨.setns true, .ok ()⟩, ⟨.buildRuntime, .ok ()⟩, ⟨.socket .route, .ok ()⟩,
    ⟨.configure .address, .ok ()⟩, ⟨.configure .extAck, .ok ()⟩, ⟨.configure .capAck, .ok ()⟩,
    ⟨.socket .ioctl, .ok ()⟩, ⟨.socket .ethtool, .ok ()⟩,
    ⟨.socket .wireless, .error lanUnsupported⟩, ⟨.sendReady (.ok ()), true⟩]

/-- The transport that is opened. -/
def lanTransport : LinuxTransport :=
  .new ⟨4, 2⟩ true false [diagnostic none "type" "unsupported"]

/-- The threads, with the other namespace to be opened. -/
abbrev lanThreads : Threads OpenThread (OpenState Bool) (OpenCall Bool) OpenAnswer OpenResult :=
  openingThreads lanPath lanStart

theorem lan_caller : ∃ middle, (NetlinkBackend.open' lanPath () :
      Program (OpenCall Bool) OpenAnswer _).Leads lanOpened (.call (.spawn true ⟨4, 2⟩) middle) ∧
    (middle (.ok ())).Leads lanHeard (.done (.ok ⟨4, 2⟩, ())) :=
  ⟨_, ⟨_, rfl, _, rfl, _, rfl, rfl⟩, _, rfl, _, rfl, rfl⟩

theorem lan_worker : ∃ middle,
    (startWorker true ⟨4, 2⟩).Leads lanFound (.call (.setns true) middle) ∧
    (Program.call (.setns true) middle).Leads lanEntered (.done (some lanTransport)) :=
  ⟨_, ⟨_, rfl, rfl⟩, _, rfl, _, rfl, _, rfl, _, rfl, _, rfl, _, rfl, _, rfl, _, rfl, _, rfl, _, rfl,
    rfl⟩

/-- No call starts a thread where none of them is a spawn. -/
theorem lan_quiet : (∀ event ∈ lanOpened, openStarts event = none) ∧
    (∀ event ∈ lanFound, openStarts event = none) ∧
    (∀ event ∈ lanEntered, openStarts event = none) ∧
    ∀ event ∈ lanHeard, openStarts event = none := by
  refine ⟨?_, ?_, ?_, ?_⟩ <;>
    simp only [lanOpened, lanFound, lanEntered, lanHeard, List.forall_mem_cons, openStarts,
      List.not_mem_nil, IsEmpty.forall_iff, implies_true, and_self]

/-- What the threads share when the worker is there. -/
def lanShared : OpenState Bool :=
  ((lanStart.hold .caller ⟨false, some true, []⟩).hold .caller ⟨false, none, []⟩).hold .worker
    ⟨false, some true, []⟩

/-- The calling thread has started the worker, which is about to enter. -/
theorem lan_entering : ∃ labels sys left k,
    Threads.Reaches (opening lanFiles) lanThreads labels sys ∧
    sys.left .caller = some left ∧ left.Leads lanHeard (.done (.ok ⟨4, 2⟩, ())) ∧
    sys.left .worker = some (.call (.setns true) k) ∧
    (Program.call (.setns true) k).Leads lanEntered (.done (some lanTransport)) ∧
    sys.shared = lanShared := by
  rcases lan_caller with ⟨middle, hopened, hheard⟩
  rcases lan_worker with ⟨k, hfound, hentered⟩
  have hpath : lanPath = NetlinkBackend.ownNamespace → true = false :=
    fun habs => absurd habs (by decide)
  have hadmits : Admits (openActs lanFiles .caller) lanStart lanOpened
      (lanStart.hold .caller ⟨false, some true, []⟩) :=
    ⟨_, ⟨trivial, _, rfl, hpath, rfl⟩, _, ⟨rfl, rfl⟩, _, ⟨rfl, rfl⟩, rfl⟩
  have hnothing : Threads.Reaches (opening lanFiles) lanThreads [] lanThreads := .start
  rcases hnothing.goes rfl hopened hadmits lan_quiet.1 with ⟨labels, hreaches⟩
  have hspawn : (opening lanFiles).acts .caller (lanStart.hold .caller ⟨false, some true, []⟩)
      (.spawn true ⟨4, 2⟩) (.ok ()) lanShared := ⟨_, rfl, rfl⟩
  have hspawned := hreaches.step (.start (Function.update_self _ _ _) hspawn rfl)
  have hown : Admits (openActs lanFiles .worker) lanShared lanFound lanShared :=
    ⟨_, ⟨_, rfl, rfl, rfl⟩, rfl⟩
  rcases hspawned.goes (Function.update_self _ _ _) hfound hown lan_quiet.2.1 with
    ⟨labels', hentering⟩
  exact ⟨labels', _, middle (.ok ()), k, hentering, rfl, hheard, rfl, hentered, rfl⟩

/-- And when it serves. -/
def lanServing : OpenState Bool :=
  { lanShared.hold .worker ⟨true, some true, transportSockets true lanTransport⟩ with
    sent := [.ok ()] }

/-- It serves, and the calling thread has not heard so yet. -/
theorem lan_serving : ∃ labels sys left,
    Threads.Reaches (opening lanFiles) lanThreads labels sys ∧
    sys.left .caller = some left ∧ left.Leads lanHeard (.done (.ok ⟨4, 2⟩, ())) ∧
    sys.left .worker = some (.done (some lanTransport)) ∧ sys.shared = lanServing := by
  rcases lan_entering with ⟨labels, sys, left, k, hreaches, hcaller, hheard, hworker, hentered,
    hshared⟩
  have hserved : Admits ((opening lanFiles).acts .worker) sys.shared lanEntered lanServing := by
    rw [hshared]
    exact ⟨_, ⟨rfl, _, rfl, rfl⟩, _, rfl, _, ⟨_, rfl, rfl⟩, _, rfl, _, rfl, _, rfl,
      _, ⟨_, rfl, rfl⟩, _, ⟨_, rfl, rfl⟩, _, rfl, _, ⟨rfl, Nat.le_refl 0, rfl⟩, by
        simp only [lanServing, OpenState.hold, Function.update_idem, if_true]
        rfl⟩
  rcases hreaches.goes hworker hentered hserved lan_quiet.2.2.1 with ⟨labels', hserving⟩
  have hleft : Function.update sys.left .worker (some (.done (some lanTransport))) .caller =
      some left := by
    rw [Function.update_of_ne (by decide)]
    exact hcaller
  exact ⟨labels', _, left, hserving, hleft, hheard, by simp only [Function.update_self], rfl⟩

/-- The worker enters without a socket, and has its sockets inside when it serves. -/
theorem open_confined_lan :
    (∃ labels sys, Threads.Reaches (opening lanFiles) lanThreads labels sys ∧
      (∃ k, sys.left .worker = some (.call (.setns true) k)) ∧
      ∃ own, sys.shared.threads .worker = some own ∧ own.file = some true ∧ own.home ≠ true ∧
        own.sockets = []) ∧
    ∃ labels sys, Threads.Reaches (opening lanFiles) lanThreads labels sys ∧
      sys.left .worker = some (.done (some lanTransport)) ∧
      ∃ file, sys.shared.threads .worker =
        some ⟨file, some file, [(.route, file), (.ioctl, file), (.ethtool, file)]⟩ := by
  refine ⟨?_, ?_⟩
  · rcases lan_entering with ⟨labels, sys, _, k, hreaches, _, _, hworker, _, _⟩
    have hconfined := open_confined lanFiles lanPath false lanStart lanStart_awaiting
      labels sys hreaches
    have hsetns := (hconfined.2.2.2 .worker _ k hworker).1 true rfl
    exact ⟨labels, sys, hreaches, ⟨k, hworker⟩, hsetns.2.2⟩
  · rcases lan_serving with ⟨labels, sys, _, hreaches, _, _, hworker, _⟩
    have hconfined := open_confined lanFiles lanPath false lanStart lanStart_awaiting
      labels sys hreaches
    exact ⟨labels, sys, hreaches, hworker, hconfined.2.2.1 lanTransport hworker⟩

theorem open_returned_lan : ∃ labels sys,
    Threads.Reaches (opening lanFiles) lanThreads labels sys ∧
    sys.left .caller = some (.done (.ok ⟨4, 2⟩, ())) ∧
    ∃ file transport, sys.left .worker = some (.done (some transport)) ∧
      lanFiles.namespaceId file = ⟨4, 2⟩ := by
  rcases lan_serving with ⟨labels, sys, left, hserving, hleft, hheard, _, hshared⟩
  have hreceived : Admits ((opening lanFiles).acts .caller) sys.shared lanHeard
      { lanServing with received := 1, listening := false } := by
    rw [hshared]
    exact ⟨_, ⟨rfl, rfl⟩, _, rfl, rfl⟩
  rcases hserving.goes hleft hheard hreceived lan_quiet.2.2.2 with ⟨labels', hend⟩
  have hreturned := open_returned lanFiles lanPath false lanStart lanStart_awaiting
    labels' _ hend (.ok ⟨4, 2⟩) (by simp only [Function.update_self])
  rcases hreturned.1 ⟨4, 2⟩ rfl with ⟨file, transport, hdone, _, _, _, hfile, _⟩
  exact ⟨labels', _, hend, by simp only [Function.update_self], file, transport, hdone, hfile⟩

end Example

end Netfyr
