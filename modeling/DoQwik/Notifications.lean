import DoQwik.JobPrograms
import DoQwik.JobRecords
import DoQwik.Spawning

/-! The notifications that the job handlers start and do not wait for. Each of them looks up the
account that it is for, sends a push message to its device, and writes a line into the log once the
push service has answered. -/
namespace DoQwik
open JsValues DocStore Interleave

section Service

/-- What the handlers tell the notification service of the job that they have just updated. -/
structure JobOptions where
  userId : ObjectId
  providerData : ObjectId
  service : String
  subService : String
  date : Option String
deriving DecidableEq

def jobOptions (j : Job) : JobOptions where
  userId := j.userId
  providerData := j.providerData
  service := j.serviceName
  subService := j.subServiceName
  date := j.serviceDate

/-- The message that is handed to the push service. -/
structure Push where
  deviceID : String
  title : String
  body : String
deriving DecidableEq

/-- The push service accepts the message or the request fails; either way with the text that
`JSON.stringify` makes of its answer, if it makes one. -/
abbrev PushOutcome := Except (Option String) (Option String)

/-- A document of `dqw_notification_log`. -/
structure NotificationLog where
  userId : ObjectId
  title : String
  respounse : Option String
  status : String
  creationDate : ℤ
deriving DecidableEq

/-- The database, with the notifications that were started, the messages that were sent with what
became of them, and the log; and the surroundings, by how often they were asked. -/
structure PushDb where
  db : Db
  started : List (NoticeKind × JobOptions)
  sent : List (Push × PushOutcome)
  log : List NotificationLog
  service : ℕ → PushOutcome
  clock : ℕ → ℤ

/-- The operations of the handlers and of the notification service. -/
inductive PushOp where
  | db (op : DbOp)
  | start (notice : Notice) (options : JobOptions)
  | send (p : Push)
  | createLog (entry : ℤ → NotificationLog)

def PushRet : PushOp → Type
  | .db op => Ret op
  | .start _ _ => Unit
  | .send _ => PushOutcome
  | .createLog _ => Unit

def execPush : (op : PushOp) → PushDb → PushDb × PushRet op
  | .db op, s => ({ s with db := (exec op s.db).1 }, (exec op s.db).2)
  | .start n o, s =>
    ({ s with db := (exec (.notify n) s.db).1, started := s.started ++ [(n.kind, o)] }, ())
  | .send p, s =>
    ({ s with sent := s.sent ++ [(p, s.service s.sent.length)] }, s.service s.sent.length)
  | .createLog entry, s => ({ s with log := s.log ++ [entry (s.clock s.log.length)] }, ())

abbrev PushAction (α : Type) := Prog PushOp PushRet Thrown α

/-- The account that a notification is for. -/
inductive Recipient where
  | user (id : ObjectId)
  | provider (id : ObjectId)

/-- The paths that are selected of the account. -/
structure Addressee where
  id : ObjectId
  deviceId : Option String

def Recipient.find (s : Db) : Recipient → Option Addressee
  | .user id => (s.users.get? id).map fun u => ⟨u.id, u.deviceId⟩
  | .provider id => (s.providers.get? id).map fun p => ⟨p.id, p.deviceId⟩

/-- What sets the notifications apart. -/
structure Notification where
  recipient : Recipient
  title : String
  message : String

def logEntry (id : ObjectId) (title : String) (outcome : PushOutcome) (now : ℤ) :
    NotificationLog where
  userId := id
  title := title
  respounse := (match outcome with | .ok result => result | .error error => error).map trim
  status := match outcome with | .ok _ => "Success" | .error _ => "Fail"
  creationDate := now

/-- The message is sent, and what the push service answers is written into the log. -/
def sendAndLog (account : ObjectId) (p : Push) : PushAction Unit := do
  let outcome ← (Prog.perform (PushOp.send p) : PushAction PushOutcome)
  Prog.perform (PushOp.createLog (logEntry account p.title outcome))

/-- What is done with the account that was looked up. Without an account, reading `userData._id`
throws; without a device, `title` is read outside of the block that declares it. -/
def Notification.deliver (n : Notification) : Option Addressee → PushAction Unit
  | none => .fail .typeError
  | some account =>
    match account.deviceId.filter (· ≠ "") with
    | none => .fail .referenceError
    | some deviceID => sendAndLog account.id ⟨deviceID, n.title, n.message⟩

/-- What the notifications share. What is thrown ends in the `catch`, and nothing is written into
the log. -/
def Notification.run (n : Notification) : PushAction Unit :=
  Prog.catchAll (fun _ => ()) do
    let userData ← (Prog.perform (PushOp.db (.read fun s => n.recipient.find s)) :
      PushAction (Option Addressee))
    n.deliver userData

/-- A text in a message; `undefined` is written out. -/
def inMessage (s : Option String) : String := s.getD "undefined"

def newJobNotificationtouser (o : JobOptions) : Notification where
  recipient := .user o.userId
  title := "New order placed."
  message := "Your order has been placed for service " ++ o.service ++ ", " ++ o.subService ++
    ". Please wait for the provider to accept the order service"

def newJobNotificationtoprovider (o : JobOptions) : Notification where
  recipient := .provider o.providerData
  title := "New order request."
  message := "Request for service " ++ o.service ++ ", " ++ o.subService ++
    ". Please accept the order service."

def jobAcceptNotyfy (o : JobOptions) : Notification where
  recipient := .user o.userId
  title := "Your order is accepted at DoQwik ."
  message := "Your order for service " ++ o.service ++ ", " ++ o.subService ++ " at " ++
    inMessage o.date ++ " accepted by service provider at DoQwik."

def jobStartNotyfy (o : JobOptions) : Notification where
  recipient := .user o.userId
  title := "Your service is started."
  message := "Your order for service " ++ o.service ++ ", " ++ o.subService ++ " at " ++
    inMessage o.date ++ " start by service provider."

def jobFinishNotyfy (o : JobOptions) : Notification where
  recipient := .user o.userId
  title := "Your requested service is completed."
  message := "Your order for service " ++ o.service ++ ", " ++ o.subService ++ " at " ++
    inMessage o.date ++ " is completed by service provider."

def NoticeKind.notification (o : JobOptions) : NoticeKind → Notification
  | .newJobNotificationtouser => DoQwik.newJobNotificationtouser o
  | .newJobNotificationtoprovider => DoQwik.newJobNotificationtoprovider o
  | .jobAcceptNotyfy => DoQwik.jobAcceptNotyfy o
  | .jobStartNotyfy => DoQwik.jobStartNotyfy o
  | .jobFinishNotyfy => DoQwik.jobFinishNotyfy o

end Service

section Handlers

variable {α : Type}

/-- The program of a handler among the notifications: what it starts is told of the job that its
last update returned. -/
def withNotices : Option Job → Action α → PushAction α
  | _, .done a => .done a
  | _, .fail e => .fail e
  | _, .call (.updateJob sel d now) k =>
    .call (.db (.updateJob sel d now)) fun result => withNotices result (k result)
  | some j, .call (.notify n) k =>
    .call (.start n (jobOptions j)) fun _ => withNotices (some j) (k ())
  | last, .call op k => .call (.db op) fun result => withNotices last (k result)

/-- A thread of the site: a request, which ends with its answer, or a notification. -/
abbrev SiteThread := PushAction (Option JobResponse)

def JobRequest.thread (r : JobRequest) : SiteThread :=
  withNotices none r.program >>= fun a => pure (some a)

/-- The notification that an operation starts. -/
def startedBy : PushOp → Option SiteThread
  | .start n o => some ((n.kind.notification o).run >>= fun _ => pure none)
  | _ => none

/-- The requests, and the notifications in progress. -/
abbrev SitePool := Pool PushDb PushOp PushRet Thrown (Option JobResponse)

def SitePool.start (s : PushDb) (rs : List JobRequest) : SitePool :=
  ⟨s, rs.map JobRequest.thread⟩

def SitePool.step (c : SitePool) (i : ℕ) : SitePool := Pool.growAt execPush startedBy c i

end Handlers

section Deliveries

def DbOp.notifies : DbOp → Bool
  | .notify _ => true
  | _ => false

theorem exec_notices_of_not_notifies {op : DbOp} (h : op.notifies = false) (s : Db) :
    (exec op s).1.notices = s.notices := by
  cases op with
  | notify n => cases h
  | createJob j => exact exec_createJob_view j fun _ => rfl
  | createCounter c => exact exec_createCounter_view c fun _ => rfl
  | createUser u => exact exec_createUser_view u fun _ => rfl
  | createProvider p => exact exec_createProvider_view p fun _ => rfl
  | _ => rfl

structure Delivery where
  account : ObjectId
  push : Push
deriving DecidableEq

def Notification.deliveryTo (n : Notification) (a : Addressee) : Option Delivery :=
  (a.deviceId.filter (· ≠ "")).map fun deviceID => ⟨a.id, ⟨deviceID, n.title, n.message⟩⟩

def Notification.delivery (n : Notification) (s : Db) : Option Delivery :=
  (n.recipient.find s).bind n.deliveryTo

def dueDeliveries (s : Db) (started : List (NoticeKind × JobOptions)) : List Delivery :=
  started.filterMap fun x => (x.1.notification x.2).delivery s

/-- The line of the log for a delivery, without its date. -/
def Delivery.entry (x : Delivery × PushOutcome) : NotificationLog :=
  logEntry x.1.account x.1.push.title x.2 0

def NotificationLog.undated (e : NotificationLog) : NotificationLog := { e with creationDate := 0 }

/-- The notification is the one of the notice, and is told of the parties and the service of the
job. -/
structure Announces (u : Db) (n : Notice) (x : NoticeKind × JobOptions) : Prop where
  kind : x.1 = n.kind
  job : ∃ j, u.jobs.get? n.job = some j ∧ x.2.userId = j.userId ∧
    x.2.providerData = j.providerData ∧ x.2.service = j.serviceName ∧
    x.2.subService = j.subServiceName

/-- Each new notice has started its notification; and all that was started is sent and written into
the log, each of it once. -/
structure Delivered (s : Db) (t : PushDb) (ds : List (Delivery × PushOutcome)) : Prop where
  noted : ∃ new, t.db.notices = s.notices ++ new ∧ List.Forall₂ (Announces t.db) new t.started
  started : (dueDeliveries s t.started).Perm (ds.map Prod.fst)
  sent : t.sent.Perm (ds.map fun x => (x.1.push, x.2))
  log : (t.log.map NotificationLog.undated).Perm (ds.map Delivery.entry)

/-- How far a thread has come: a request knows the job that its last update returned, and a
notification knows what it still has to do. -/
inductive NoticeStage where
  | request (last : Option Job)
  | unread (n : Notification)
  | unsent (d : Delivery)
  | unlogged (x : Delivery × PushOutcome)
  | ended

namespace NoticeStage

def pending (s : Db) : NoticeStage → Multiset Delivery
  | .unread n => (n.delivery s).toList
  | .unsent d => {d}
  | _ => 0

def unwritten : NoticeStage → Multiset NotificationLog
  | .unlogged x => {Delivery.entry x}
  | _ => 0

end NoticeStage

/-- The operations of the job handlers but updates and notifications. -/
structure DbOp.ServesJobs (op : DbOp) : Prop where
  users : op.writesUsers = false
  providers : op.writesProviders = false
  silent : op.notifies = false
  steady : ∀ sel d now, op ≠ .updateJob sel d now

/-- How a request comes by the job that it starts notifications for: its last update returned
it. -/
inductive LastStep : Option Job → DbOp → Db → Option Job → Prop where
  | serve {last op t} (h : op.ServesJobs) : LastStep last op t last
  | update {last sel d now t} (h : d.KeepsTerms) :
      LastStep last (.updateJob sel d now) t ((t.jobs.findOne sel).map (d.apply now))
  | notify {j n t} (h : n.job = j.id) : LastStep (some j) (.notify n) t (some j)

inductive NoticeStep : NoticeStage → PushOp → PushDb → NoticeStage → Prop where
  | serve {last op t} (h : op.ServesJobs) : NoticeStep (.request last) (.db op) t (.request last)
  | update {last sel d now t} (h : d.KeepsTerms) :
      NoticeStep (.request last) (.db (.updateJob sel d now)) t
        (.request ((t.db.jobs.findOne sel).map (d.apply now)))
  | start {j n t} (h : n.job = j.id) :
      NoticeStep (.request (some j)) (.start n (jobOptions j)) t (.request (some j))
  | find {n d t} (h : n.delivery t.db = some d) :
      NoticeStep (.unread n) (.db (.read fun s => n.recipient.find s)) t (.unsent d)
  | miss {n t} (h : n.delivery t.db = none) :
      NoticeStep (.unread n) (.db (.read fun s => n.recipient.find s)) t .ended
  | send {d t} : NoticeStep (.unsent d) (.send d.push) t (.unlogged (d, t.service t.sent.length))
  | log {d outcome t} :
      NoticeStep (.unlogged (d, outcome)) (.createLog (logEntry d.account d.push.title outcome)) t
        .ended

def startedAt : PushOp → Option NoticeStage
  | .start n o => some (.unread (n.kind.notification o))
  | _ => none

/-- A thread that may end has nothing left to do. -/
def NoticeStage.settled (g : NoticeStage) : Prop :=
  (∃ last, g = .request last) ∨ g = .ended

abbrev NoticeStaged (g : NoticeStage) {α : Type} (p : PushAction α) : Prop :=
  Prog.Tracks execPush NoticeStep (fun g _ => g.settled) NoticeStage.settled g p

theorem servesJobs_of_counts {op : DbOp} (h : op.counts = true) : op.ServesJobs := by
  cases op with
  | read f | createCounter c | updateCounter table m n =>
    exact ⟨rfl, rfl, rfl, fun _ _ _ h => by cases h⟩
  | _ => cases h

/-- Whatever the others do, a request starts notifications for the job that it updated. -/
theorem tracks_last (r : JobRequest) :
    Prog.Tracks exec LastStep (fun _ _ => True) (fun _ => True) none r.program := by
  refine Prog.Tracks.catchAll (fun _ _ _ => trivial) ?_
  by_cases hr : r.handler = .assignJob
  · have hbooking : BookingRule (fun _ => True) (fun _ op => op.ServesJobs) r :=
      ⟨fun _ _ _ => servesJobs_of_counts rfl, fun _ _ => servesJobs_of_counts rfl,
        fun _ _ _ _ => servesJobs_of_counts rfl,
        fun _ _ _ _ _ _ _ _ _ _ _ => ⟨rfl, rfl, rfl, fun _ _ _ h => by cases h⟩⟩
    have hfollows := follows_assignJob (R := fun _ _ => True) hbooking (fun _ _ _ _ _ => trivial)
      Db.empty
    simp only [JobRequest.handle, hr]
    exact Prog.Tracks.of_follows (fun _ _ hop => .serve hop) hfollows
  · refine tracks_handle hr ⟨?_, ?_, ?_, fun _ => trivial, trivial, ?_, ?_⟩
    · exact fun _ _ _ => .serve (servesJobs_of_counts rfl)
    · exact fun _ _ => .serve (servesJobs_of_counts rfl)
    · exact fun _ _ => .serve (servesJobs_of_counts rfl)
    · intro p j d _ hplan t
      refine ⟨_, .update (plan_keepsTerms hplan), tracks_finish ?_ trivial fun _ _ => trivial⟩
      intro j' hj' kind t'
      rw [Option.mem_def.mp hj']
      exact .notify rfl
    · exact fun _ p _ t => ⟨_, .update (by constructor <;> rfl), trivial⟩

theorem staged_withNotices {α : Type} {p : Action α} {last : Option Job}
    (h : Prog.Tracks exec LastStep (fun _ _ => True) (fun _ => True) last p) :
    NoticeStaged (.request last) (withNotices last p) := by
  induction p generalizing last with
  | done a => exact Or.inl ⟨last, rfl⟩
  | fail e => exact Or.inl ⟨last, rfl⟩
  | call op k ih =>
    cases op with
    | updateJob sel d now =>
      intro t
      obtain ⟨last', hstep, hrest⟩ := h t.db
      cases hstep with
      | serve hop => exact absurd rfl (hop.steady sel d now)
      | update hd => exact ⟨_, .update hd, ih _ hrest⟩
    | notify n =>
      cases last with
      | none =>
        obtain ⟨last', hstep, -⟩ := h Db.empty
        cases hstep with
        | serve hop => cases hop.silent
      | some j =>
        intro t
        obtain ⟨last', hstep, hrest⟩ := h t.db
        cases hstep with
        | serve hop => cases hop.silent
        | notify hn => exact ⟨_, .start hn, ih _ hrest⟩
    | _ =>
      intro t
      obtain ⟨last', hstep, hrest⟩ := h t.db
      cases hstep with
      | serve hop => exact ⟨_, .serve hop, ih _ hrest⟩

theorem staged_sendAndLog (d : Delivery) : NoticeStaged (.unsent d) (sendAndLog d.account d.push) :=
  fun _ => ⟨_, .send, fun _ => ⟨_, .log, Or.inr rfl⟩⟩

theorem staged_deliver (n : Notification) (x : Option Addressee) :
    NoticeStaged ((x.bind n.deliveryTo).elim .ended .unsent) (n.deliver x) := by
  cases x with
  | none => exact Or.inr rfl
  | some a =>
    rw [Option.bind_some]
    unfold Notification.deliver Notification.deliveryTo
    dsimp only
    cases a.deviceId.filter (· ≠ "") with
    | none => exact Or.inr rfl
    | some deviceID => exact staged_sendAndLog ⟨a.id, ⟨deviceID, n.title, n.message⟩⟩

theorem staged_notification (n : Notification) : NoticeStaged (.unread n) n.run := by
  refine Prog.Tracks.catchAll (fun _ _ h => h) fun t => ⟨_, ?_, staged_deliver n _⟩
  change NoticeStep _ _ _ ((n.delivery t.db).elim .ended .unsent)
  cases hd : n.delivery t.db with
  | none => exact .miss hd
  | some d => exact .find hd

theorem staged_thread (r : JobRequest) : NoticeStaged (.request none) r.thread := by
  apply Prog.Tracks.bind
  exact Prog.Tracks.mono (fun _ _ h => h) (staged_withNotices (tracks_last r))

theorem startsAt_notification :
    StartsAt execPush NoticeStep (fun g (_ : Option JobResponse) => g.settled)
      NoticeStage.settled startedBy startedAt := by
  intro op
  cases op with
  | start n o =>
    refine .cons ?_ .nil
    apply Prog.Tracks.bind
    exact Prog.Tracks.mono (fun _ _ h => h) (staged_notification (n.kind.notification o))
  | _ => exact .nil

end Deliveries

section Runs

/-- What was started is sent or pending, and what was sent is in the log or unwritten. -/
def NoticesBalance (s : Db) (t : PushDb) (pending : Multiset Delivery)
    (unwritten : Multiset NotificationLog) : Prop :=
  ∃ ds : List (Delivery × PushOutcome),
    (dueDeliveries s t.started : Multiset Delivery) = ds.map Prod.fst + pending ∧
    (t.sent : Multiset (Push × PushOutcome)) = ds.map (fun x => (x.1.push, x.2)) ∧
    (ds.map Delivery.entry : Multiset NotificationLog) =
      t.log.map NotificationLog.undated + unwritten

/-- What holds at every step, of the state and of the stages of the threads. -/
structure Delivering (s : Db) (t : PushDb) (gs : List NoticeStage) : Prop where
  users : t.db.users = s.users
  providers : t.db.providers = s.providers
  balanced : NoticesBalance s t (gs.map (NoticeStage.pending s)).sum
    (gs.map NoticeStage.unwritten).sum
  known : ∀ j, .request (some j) ∈ gs → ∃ j', t.db.jobs.get? j.id = some j' ∧ j'.terms = j.terms
  noted : ∃ new, t.db.notices = s.notices ++ new ∧ List.Forall₂ (Announces t.db) new t.started

variable {s : Db} {t : PushDb} {l r : List NoticeStage}

theorem sum_stages {M : Type} [AddCommMonoid M] (f : NoticeStage → M) (g : NoticeStage) :
    ((l ++ g :: r).map f).sum = f g + ((l ++ r).map f).sum := by
  simp only [List.map_append, List.map_cons, List.sum_append, List.sum_cons]
  exact add_left_comm _ _ _

theorem sum_settled {M : Type} [AddCommMonoid M] {gs : List NoticeStage} (f : NoticeStage → M)
    (h : ∀ g ∈ gs, f g = 0) : (gs.map f).sum = 0 := by
  apply List.sum_eq_zero
  intro x hx
  obtain ⟨g, hg, rfl⟩ := List.mem_map.mp hx
  exact h g hg

theorem NoticeStage.settled.pending_eq {g : NoticeStage} (h : g.settled) : g.pending s = 0 := by
  rcases h with ⟨last, rfl⟩ | rfl <;> rfl

theorem NoticeStage.settled.unwritten_eq {g : NoticeStage} (h : g.settled) : g.unwritten = 0 := by
  rcases h with ⟨last, rfl⟩ | rfl <;> rfl

theorem sum_stages_concat {M : Type} [AddCommMonoid M] (f : NoticeStage → M) (gs : List NoticeStage)
    (g : NoticeStage) : ((gs ++ [g]).map f).sum = (gs.map f).sum + f g := by
  simp

theorem dueDeliveries_concat (s : Db) (started : List (NoticeKind × JobOptions))
    (x : NoticeKind × JobOptions) :
    dueDeliveries s (started ++ [x]) =
      dueDeliveries s started ++ ((x.1.notification x.2).delivery s).toList := by
  unfold dueDeliveries
  rw [List.filterMap_append]
  cases h : (x.1.notification x.2).delivery s with
  | none => simp [h]
  | some d => simp [h]

theorem delivery_congr (n : Notification) (hu : t.db.users = s.users)
    (hp : t.db.providers = s.providers) : n.delivery t.db = n.delivery s := by
  unfold Notification.delivery Recipient.find
  cases n.recipient with
  | user id => simp only [hu]
  | provider id => simp only [hp]

theorem termsRule_of_servesJobs {op : DbOp} (h : op.ServesJobs) (u : Db) : TermsRule u op := by
  cases op with
  | updateJob sel d now => exact absurd rfl (h.steady sel d now)
  | _ => trivial

theorem Announces.of_termsKept {u u' : Db} (h : TermsKept u u') {n : Notice}
    {x : NoticeKind × JobOptions} (hx : Announces u n x) : Announces u' n x := by
  obtain ⟨hkind, j, hj, huser, hprovider, hservice, hsub⟩ := hx
  obtain ⟨j', hj', hterms⟩ := h _ _ hj
  have hfield {β : Type} (f : JobTerms → β) : f j.terms = f j'.terms := (congrArg f hterms).symm
  exact ⟨hkind, j', hj', huser.trans (hfield JobTerms.userId),
    hprovider.trans (hfield JobTerms.providerData), hservice.trans (hfield JobTerms.serviceName),
    hsub.trans (hfield JobTerms.subServiceName)⟩

/-- A step of a request other than the start of a notification. -/
theorem Delivering.serve {last last' : Option Job} {op : DbOp}
    (h : Delivering s t (l ++ .request last :: r)) (husers : op.writesUsers = false)
    (hproviders : op.writesProviders = false) (hsilent : op.notifies = false)
    (hterms : TermsRule t.db op)
    (hlast : ∀ j, last' = some j → last = some j ∨
      ∃ j', (exec op t.db).1.jobs.get? j.id = some j' ∧ j'.terms = j.terms) :
    Delivering s (execPush (.db op) t).1 (l ++ .request last' :: r) where
  users := (exec_users_of_not_writesUsers husers t.db).trans h.users
  providers := (exec_providers_of_not_writesProviders hproviders t.db).trans h.providers
  balanced := by
    have hbalanced := h.balanced
    rw [sum_stages, sum_stages] at hbalanced ⊢
    exact hbalanced
  known := by
    intro j hj
    have hold (hmem : .request (some j) ∈ l ++ .request last :: r) :
        ∃ j', (exec op t.db).1.jobs.get? j.id = some j' ∧ j'.terms = j.terms := by
      obtain ⟨j₁, hget, hsame⟩ := h.known j hmem
      obtain ⟨j₂, hget', hkept⟩ := termsKept_exec t.db hterms j.id j₁ hget
      exact ⟨j₂, hget', hkept.trans hsame⟩
    simp only [List.mem_append, List.mem_cons] at hj hold
    rcases hj with hj | hj | hj
    · exact hold (Or.inl hj)
    · rcases hlast j (NoticeStage.request.inj hj).symm with hsame | hnew
      · exact hold (Or.inr (Or.inl (by rw [hsame])))
      · exact hnew
    · exact hold (Or.inr (Or.inr hj))
  noted := by
    obtain ⟨new, hnew, hall⟩ := h.noted
    refine ⟨new, (exec_notices_of_not_notifies hsilent t.db).trans hnew, hall.imp ?_⟩
    exact fun n x hx => hx.of_termsKept (termsKept_exec t.db hterms)

/-- A step that leaves the database alone. -/
theorem Delivering.of_balanced {g g' : NoticeStage} {u : PushDb}
    (h : Delivering s t (l ++ g :: r)) (hdb : u.db = t.db) (hstarted : u.started = t.started)
    (hg' : ∀ last, g' ≠ .request last)
    (hbalanced : ∀ pending unwritten,
      NoticesBalance s t (g.pending s + pending) (g.unwritten + unwritten) →
        NoticesBalance s u (g'.pending s + pending) (g'.unwritten + unwritten)) :
    Delivering s u (l ++ g' :: r) where
  users := hdb ▸ h.users
  providers := hdb ▸ h.providers
  balanced := by
    have hbefore := h.balanced
    rw [sum_stages, sum_stages] at hbefore ⊢
    exact hbalanced _ _ hbefore
  known := by
    intro j hj
    rw [hdb]
    apply h.known j
    simp only [List.mem_append, List.mem_cons] at hj ⊢
    rcases hj with hj | hj | hj
    · exact Or.inl hj
    · exact absurd hj.symm (hg' _)
    · exact Or.inr (Or.inr hj)
  noted := by
    rw [hdb, hstarted]
    exact h.noted

theorem Delivering.start {j : Job} {n : Notice} (hn : n.job = j.id)
    (h : Delivering s t (l ++ .request (some j) :: r)) :
    Delivering s (execPush (.start n (jobOptions j)) t).1
      (l ++ .request (some j) :: r ++ [.unread (n.kind.notification (jobOptions j))]) where
  users := h.users
  providers := h.providers
  balanced := by
    obtain ⟨ds, hstarted, hsent, hlog⟩ := h.balanced
    rw [sum_stages_concat, sum_stages_concat]
    refine ⟨ds, ?_, hsent, ?_⟩
    · change ((dueDeliveries s (t.started ++ [(n.kind, jobOptions j)]) : List Delivery) :
        Multiset Delivery) = _
      rw [dueDeliveries_concat, ← Multiset.coe_add, hstarted, add_assoc]
      rfl
    · rw [hlog]
      exact (congrArg _ (add_zero _)).symm
  known := by
    intro j' hj'
    apply h.known j'
    simpa using hj'
  noted := by
    obtain ⟨new, hnew, hall⟩ := h.noted
    have hannounces : Announces t.db n (n.kind, jobOptions j) := by
      obtain ⟨j', hget, hterms⟩ := h.known j (by simp)
      have hfield {β : Type} (f : JobTerms → β) : f j.terms = f j'.terms :=
        (congrArg f hterms).symm
      exact ⟨rfl, j', hn ▸ hget, hfield JobTerms.userId, hfield JobTerms.providerData,
        hfield JobTerms.serviceName, hfield JobTerms.subServiceName⟩
    have hkept : TermsKept t.db (exec (.notify n) t.db).1 := termsKept_exec t.db trivial
    refine ⟨new ++ [n], ?_, List.rel_append (hall.imp ?_) (.cons ?_ .nil)⟩
    · change t.db.notices ++ [n] = _
      rw [hnew, List.append_assoc]
    · exact fun _ _ hx => hx.of_termsKept hkept
    · exact hannounces.of_termsKept hkept

theorem Delivering.step {g g' : NoticeStage} {op : PushOp} (h : Delivering s t (l ++ g :: r))
    (hstep : NoticeStep g op t g') :
    Delivering s (execPush op t).1 (l ++ g' :: r ++ (startedAt op).toList) := by
  cases hstep with
  | start hn => exact h.start hn
  | serve hop =>
    simp only [startedAt, Option.toList_none, List.append_nil]
    exact h.serve hop.users hop.providers hop.silent (termsRule_of_servesJobs hop t.db)
      fun j hj => Or.inl hj
  | @update last sel d now _ hd =>
    simp only [startedAt, Option.toList_none, List.append_nil]
    refine h.serve rfl rfl rfl hd fun j hj => Or.inr ?_
    obtain ⟨j₀, hfind, rfl⟩ := Option.map_eq_some_iff.mp hj
    exact ⟨_, Collection.get?_key (mem_exec_updateJob hfind d now), rfl⟩
  | find hd =>
    simp only [startedAt, Option.toList_none, List.append_nil]
    refine h.of_balanced rfl rfl (fun _ h => by cases h) fun pending unwritten hb => ?_
    rw [delivery_congr _ h.users h.providers] at hd
    simp only [NoticeStage.pending, hd] at hb
    exact hb
  | miss hd =>
    simp only [startedAt, Option.toList_none, List.append_nil]
    refine h.of_balanced rfl rfl (fun _ h => by cases h) fun pending unwritten hb => ?_
    rw [delivery_congr _ h.users h.providers] at hd
    simp only [NoticeStage.pending, hd] at hb
    exact hb
  | @send d _ =>
    simp only [startedAt, Option.toList_none, List.append_nil]
    refine h.of_balanced rfl rfl (fun _ h => by cases h) fun pending unwritten hb => ?_
    obtain ⟨ds, hstarted, hsent, hlog⟩ := hb
    let x : Delivery × PushOutcome := (d, t.service t.sent.length)
    simp only [NoticeStage.pending, NoticeStage.unwritten, zero_add] at hstarted hlog ⊢
    refine ⟨ds ++ [x], ?_, ?_, ?_⟩
    · change (dueDeliveries s t.started : Multiset Delivery) = _
      rw [hstarted, List.map_append, ← Multiset.coe_add, add_assoc]
      rfl
    · change ((t.sent ++ [(d.push, t.service t.sent.length)] : List (Push × PushOutcome)) :
        Multiset (Push × PushOutcome)) = _
      rw [List.map_append, ← Multiset.coe_add, ← Multiset.coe_add, hsent]
      rfl
    · rw [List.map_append, ← Multiset.coe_add, hlog, add_comm {_} unwritten, ← add_assoc]
      rfl
  | @log d outcome _ =>
    simp only [startedAt, Option.toList_none, List.append_nil]
    refine h.of_balanced rfl rfl (fun _ h => by cases h) fun pending unwritten hb => ?_
    obtain ⟨ds, hstarted, hsent, hlog⟩ := hb
    refine ⟨ds, hstarted, hsent, ?_⟩
    simp only [NoticeStage.unwritten, zero_add] at hlog ⊢
    rw [hlog, ← add_assoc]
    congr 1
    change _ = ((t.log ++ [_]).map NotificationLog.undated : Multiset NotificationLog)
    rw [List.map_append, ← Multiset.coe_add]
    rfl

/-- The notifications of the job handlers, in every interleaving of the requests and of all that
they start: once everything has come to its end, each notice has started the notification for the
parties of its job; and of those, each that finds a device has sent one message to it and has
written one line with the answer of the push service into the log, and the others neither. -/
theorem notifications_delivered_once (s : PushDb) (hs : s.started = [] ∧ s.sent = [] ∧ s.log = [])
    (rs : List JobRequest) (sched : List ℕ)
    (hdone : (runFrom SitePool.step (SitePool.start s rs) sched).finished = true) :
    ∃ ds, Delivered s.db (runFrom SitePool.step (SitePool.start s rs) sched).state ds := by
  obtain ⟨hstarted, hsent, hlog⟩ := hs
  have hthreads : Staged execPush NoticeStep (fun g (_ : Option JobResponse) => g.settled)
      NoticeStage.settled (rs.map fun _ => .request none) (SitePool.start s rs) := by
    refine List.forall₂_map_left_iff.mpr (List.forall₂_map_right_iff.mpr ?_)
    exact List.forall₂_same.mpr fun r _ => staged_thread r
  have hidle : ∀ g ∈ rs.map (fun _ => NoticeStage.request none), g = .request none := by
    intro g hg
    obtain ⟨-, -, rfl⟩ := List.mem_map.mp hg
    rfl
  have hstart : Delivering s.db s (rs.map fun _ => .request none) := by
    refine ⟨rfl, rfl, ?_, ?_, ⟨[], (List.append_nil _).symm, hstarted ▸ .nil⟩⟩
    · rw [sum_settled _ fun g hg => by rw [hidle g hg]; rfl,
        sum_settled _ fun g hg => by rw [hidle g hg]; rfl]
      exact ⟨[], by rw [hstarted]; rfl, by rw [hsent]; rfl, by rw [hlog]; rfl⟩
    · intro j hj
      cases hidle _ hj
  obtain ⟨gs, hend, hdelivering⟩ := hthreads.run startsAt_notification
    (fun t l g r op g' hI hstep => hI.step hstep) hstart sched
  -- Nothing is pending any more, and nothing unwritten.
  have hsettled : ∀ g ∈ gs, g.settled := by
    intro g hg
    rcases hend.ended hdone g hg with ⟨a, ha⟩ | hg'
    · exact ha
    · exact hg'
  obtain ⟨ds, hdue, hpushed, hwritten⟩ := hdelivering.balanced
  rw [sum_settled _ fun g hg => (hsettled g hg).pending_eq, add_zero] at hdue
  rw [sum_settled _ fun g hg => (hsettled g hg).unwritten_eq, add_zero] at hwritten
  exact ⟨ds, hdelivering.noted, Multiset.coe_eq_coe.mp hdue, Multiset.coe_eq_coe.mp hpushed,
    (Multiset.coe_eq_coe.mp hwritten).symm⟩

def sampleSite : PushDb where
  db := { runFrom serve sampleDb [sampleBooking] with
    users := ⟨[{ sampleUser with deviceId := some "device" }], List.nodup_singleton _⟩ }
  started := []
  sent := []
  log := []
  service _ := .ok (some "sent")
  clock _ := 4

/-- The job is accepted while its payment is arranged: the customer is told of both, and the
company, which has no device, of nothing. -/
theorem notifications_delivered_sample :
    let c := runFrom SitePool.step
      (SitePool.start sampleSite
        [onSampleJob .jobAccept company 2, onSampleJob .proceedToPay customer 3])
      ([0, 1, 0, 1, 0, 1, 1, 1] ++ (List.range 15).map fun n => n % 5)
    c.state.sent.map (fun x => x.1.title) =
        ["Your order is accepted at DoQwik .", "New order placed."] ∧
      ∃ ds, Delivered sampleSite.db c.state ds :=
  ⟨by decide +kernel, notifications_delivered_once _ ⟨rfl, rfl, rfl⟩ _ _ (by decide +kernel)⟩

end Runs

section Transparency

/-- An operation of a notification: it leaves the database alone and starts nothing. -/
def PushOp.Quiet (op : PushOp) : Prop :=
  LeavesView execPush PushDb.db op ∧ startedBy op = none

theorem issues_notification (n : Notification) :
    (n.run >>= fun _ => pure none : SiteThread).Issues execPush PushOp.Quiet := by
  apply Prog.Tracks.bind
  refine Prog.Tracks.catchAll (fun _ _ _ => trivial) fun t => ⟨(), ⟨fun _ => rfl, rfl⟩, ?_⟩
  change Prog.Tracks _ _ _ _ _ (n.deliver (n.recipient.find t.db))
  unfold Notification.deliver
  cases n.recipient.find t.db with
  | none => trivial
  | some a =>
    dsimp only
    cases a.deviceId.filter (· ≠ "") with
    | none => trivial
    | some deviceID =>
      exact fun _ => ⟨(), ⟨fun _ => rfl, rfl⟩, fun _ => ⟨(), ⟨fun _ => rfl, rfl⟩, trivial⟩⟩

/-- The site and the pool of the requests alone: the same database, the requests as far as each
other, and beyond them threads that only notify. -/
structure Mirrors (n : ℕ) (c : SitePool) (d : JobPool) : Prop where
  state : c.state.db = d.state
  requests : ∀ i < n, ∃ last p, d.threads[i]? = some p ∧
    c.threads[i]? = some (withNotices last p >>= fun a => pure (some a))
  notices : ∀ i p, n ≤ i → c.threads[i]? = some p → p.Issues execPush PushOp.Quiet

/-- The operation of a request on the site does to the database what it does alone, and the request
goes on with what it returns. -/
theorem withNotices_call {α : Type} (last : Option Job) (op : DbOp) (k : Ret op → Action α) :
    ∃ op' k', withNotices last (.call op k) = .call op' k' ∧
      ∀ t : PushDb, (execPush op' t).1.db = (exec op t.db).1 ∧
        ∃ last', k' (execPush op' t).2 = withNotices last' (k (exec op t.db).2) := by
  cases op with
  | updateJob sel d now => exact ⟨_, _, rfl, fun t => ⟨rfl, _, rfl⟩⟩
  | notify n =>
    cases last with
    | none => exact ⟨_, _, rfl, fun t => ⟨rfl, _, rfl⟩⟩
    | some j => exact ⟨_, _, rfl, fun t => ⟨rfl, _, rfl⟩⟩
  | _ => exact ⟨_, _, rfl, fun t => ⟨rfl, _, rfl⟩⟩

/-- A request has its answer on the site exactly when it has it alone. -/
theorem thread_eq_done (last : Option Job) (p : Action JobResponse) (a : JobResponse) :
    (withNotices last p >>= fun a => pure (some a) : SiteThread) = .done (some a) ↔
      p = .done a := by
  cases p with
  | done b =>
    change (Prog.done (some b) : SiteThread) = _ ↔ _
    simp only [Prog.done.injEq, Option.some.injEq]
  | fail e =>
    change (Prog.fail e : SiteThread) = _ ↔ _
    simp only [reduceCtorEq]
  | call op k =>
    obtain ⟨op', k', hlift, -⟩ := withNotices_call last op k
    rw [hlift]
    change (Prog.call op' fun x => k' x >>= fun a => pure (some a) : SiteThread) = _ ↔ _
    simp only [reduceCtorEq]

variable {n i : ℕ} {c : SitePool} {d : JobPool}

theorem issues_startedBy {op : PushOp} {p : SiteThread} (h : startedBy op = some p) :
    p.Issues execPush PushOp.Quiet := by
  cases op with
  | start notice o =>
    cases h
    exact issues_notification _
  | _ => cases h

/-- A request takes the same step on the site and alone. -/
theorem Mirrors.step_request (h : Mirrors n c d) (hi : i < n) :
    Mirrors n (c.step i) (d.step i) := by
  obtain ⟨last, p, hp, hq⟩ := h.requests i hi
  cases p with
  | call op k =>
    obtain ⟨op', k', hlift, hstep⟩ := withNotices_call last op k
    obtain ⟨hdb, last', hk⟩ := hstep c.state
    rw [hlift] at hq
    have hcall : c.threads[i]? = some (.call op' fun x => k' x >>= fun a => pure (some a)) := hq
    have hlt := (List.getElem?_eq_some_iff.mp hcall).1
    have hc : c.step i = _ := Pool.growAt_of_call hcall
    have hd : d.step i = _ := Pool.stepAt_of_call exec hp
    rw [hc, hd]
    constructor
    · exact hdb.trans (by rw [h.state])
    · intro j hj
      have hjlt : j < c.threads.length := by
        obtain ⟨_, _, -, hthread⟩ := h.requests j hj
        exact (List.getElem?_eq_some_iff.mp hthread).1
      rw [List.getElem?_append_left (by simpa using hjlt)]
      by_cases hji : j = i
      · subst hji
        refine ⟨last', _, List.getElem?_set_self (List.getElem?_eq_some_iff.mp hp).1, ?_⟩
        rw [List.getElem?_set_self hlt, ← h.state, hk]
      · rw [List.getElem?_set_ne (Ne.symm hji), List.getElem?_set_ne (Ne.symm hji)]
        exact h.requests j hj
    · intro j q hj hq'
      by_cases hjlt : j < c.threads.length
      · rw [List.getElem?_append_left (by simpa using hjlt),
          List.getElem?_set_ne (by omega)] at hq'
        exact h.notices j q hj hq'
      · rw [List.getElem?_append_right (by simpa using hjlt)] at hq'
        exact issues_startedBy (Option.mem_toList.mp (List.mem_of_getElem? hq'))
  | _ =>
    have hc : c.step i = c :=
      Pool.growAt_of_nextOp_none (by simp [Pool.nextOp, hq, withNotices]; rfl)
    have hd : d.step i = d := Pool.stepAt_of_nextOp_none exec (by simp [Pool.nextOp, hp, Prog.next])
    rw [hc, hd]
    exact h

/-- A step of a notification is none of the requests. -/
theorem Mirrors.step_notice (h : Mirrors n c d) (hi : n ≤ i) : Mirrors n (c.step i) d := by
  cases hop : c.nextOp i with
  | none =>
    have hc : c.step i = c := Pool.growAt_of_nextOp_none hop
    rw [hc]
    exact h
  | some op =>
    obtain ⟨k, hk⟩ := Pool.call_of_nextOp hop
    obtain ⟨_, ⟨hleaves, hstarts⟩, hrest⟩ := h.notices i _ hi hk c.state
    have hc : c.step i =
        ⟨(execPush op c.state).1, c.threads.set i (k (execPush op c.state).2)⟩ := by
      refine (Pool.growAt_of_call hk).trans ?_
      rw [hstarts, Option.toList_none, List.append_nil]
    rw [hc]
    constructor
    · exact (hleaves c.state).trans h.state
    · intro j hj
      rw [List.getElem?_set_ne (by omega)]
      exact h.requests j hj
    · intro j q hj hq
      by_cases hji : j = i
      · subst hji
        rw [List.getElem?_set_self (List.getElem?_eq_some_iff.mp hk).1, Option.some.injEq] at hq
        exact hq ▸ hrest
      · rw [List.getElem?_set_ne (Ne.symm hji)] at hq
        exact h.notices j q hj hq

theorem mirrors_run (sched : List ℕ) (h : Mirrors n c d) :
    Mirrors n (runFrom SitePool.step c sched)
      (runFrom JobPool.step d (sched.filter fun i => i < n)) := by
  induction sched generalizing c d with
  | nil => exact h
  | cons i sched ih =>
    rw [runFrom_cons]
    by_cases hi : i < n
    · rw [List.filter_cons_of_pos (by simpa using hi), runFrom_cons]
      exact ih (h.step_request hi)
    · rw [List.filter_cons_of_neg (by simpa using hi)]
      exact ih (h.step_notice (Nat.le_of_not_lt hi))

/-- What the requests do does not depend on the notifications that they start: however these run
between their steps, the database is what the requests alone make of it in the same order, and the
answers are the same. -/
theorem notifications_transparent (s : PushDb) (rs : List JobRequest) (sched : List ℕ) :
    let c := runFrom SitePool.step (SitePool.start s rs) sched
    let d := runFrom JobPool.step (JobPool.start s.db rs) (sched.filter fun i => i < rs.length)
    c.state.db = d.state ∧
      ∀ i < rs.length, ∀ a,
        c.threads[i]? = some (.done (some a)) ↔ d.threads[i]? = some (.done a) := by
  have hstart : Mirrors rs.length (SitePool.start s rs) (JobPool.start s.db rs) := by
    refine ⟨rfl, fun i hi => ⟨none, rs[i].program, ?_, ?_⟩, fun i p hi hp => ?_⟩
    · simp [JobPool.start, hi]
    · simp [SitePool.start, hi, JobRequest.thread]
    · have hlt := (List.getElem?_eq_some_iff.mp hp).1
      simp only [SitePool.start, List.length_map] at hlt
      omega
  have hend := mirrors_run sched hstart
  refine ⟨hend.state, fun i hi a => ?_⟩
  obtain ⟨last, p, hp, hq⟩ := hend.requests i hi
  rw [hp, hq, Option.some.injEq, Option.some.injEq]
  exact thread_eq_done last p a

end Transparency

end DoQwik
