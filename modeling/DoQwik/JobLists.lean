import DoQwik.JobsController

/-! The routed handlers of the jobs controller that only read: the lists of a provider, a
worker and a customer, the details of a job, the transaction history and the revenues. -/
namespace DoQwik
open JsValues DocStore Interleave

/-- The routed handlers that read jobs. -/
inductive JobListHandler where
  | assignJobListByProviderID
  | jobListByWorkerID
  | jobListByUserID
  | jobDetailsByID
  | jobTransactionHistory
  | getDailyRevenue
  | getMonthlyRevenue
deriving DecidableEq

/-- A period of a revenue: its name and its first and last millisecond. -/
structure Period where
  date : String
  first : ℤ
  last : ℤ

/-- A request that passed the authorization. What the driver reads off `skip` and `limit`, and
the days or months that the calendar of the server makes of the clock, are given. -/
structure JobListRequest where
  handler : JobListHandler
  caller : Caller
  jobId : Option Json := none
  orderSearch : Option Json := none
  window : Except Thrown (ℕ × Option ℕ) := .ok (0, none)
  periods : List Period := []
  regex : RegexEngine

section Services

def page {α : Type} (w : ℕ × Option ℕ) (xs : List α) : List α :=
  match w.2 with
  | none => xs.drop w.1
  | some limit => (xs.drop w.1).take limit

/-- `select` and `populate` of the lists, with or without the code. -/
def entryOf (s : Db) (withCode : Bool) (j : Job) : JobEntry where
  id := j.id
  userId := (s.users.get? j.userId).map User.contact
  providerData := (s.providers.get? j.providerData).map Provider.contact
  serviceName := j.serviceName
  subServiceName := j.subServiceName
  amount := j.amount
  serviceLocation := (j.serviceLocation.bind s.addresses.get?).map Address.contact
  serviceDate := j.serviceDate
  serviceTime := j.serviceTime
  jobDesc := j.jobDesc
  paymentStatus := j.paymentStatus
  jobStatus := j.jobStatus
  jobImage := j.jobImage
  creationDate := j.creationDate
  serviceType := (s.providerSubServices.get? j.serviceType).map fun o => (o.id, o.serviceData)
  otherCharges := j.otherCharges
  discount := j.discount
  paidAmount := j.paidAmount
  verificationCode := if withCode then j.verificationCode else none

def detailsOf (s : Db) (j : Job) : JobDetails where
  id := j.id
  userId := j.userId
  providerData := (s.providers.get? j.providerData).map Provider.contact
  serviceName := j.serviceName
  subServiceName := j.subServiceName
  amount := j.amount
  serviceLocation := (j.serviceLocation.bind s.addresses.get?).map Address.contact
  serviceDate := j.serviceDate
  serviceTime := j.serviceTime
  jobDesc := j.jobDesc
  paymentStatus := j.paymentStatus
  jobStatus := j.jobStatus
  jobImage := j.jobImage
  creationDate := j.creationDate
  paidAmount := j.paidAmount
  discount := j.discount
  paymentMode := j.paymentMode
  finalPaidAmount := j.finalPaidAmount

def transactionOf (j : Job) : TransactionEntry where
  id := j.id
  jobFinishAt := j.jobFinishAt
  otherCharges := j.otherCharges
  discount := j.discount
  paidAmount := j.paidAmount
  finalPaidAmount := j.finalPaidAmount
  paymentMode := j.paymentMode
  paymentStatus := j.paymentStatus
  paymentType := j.paymentType

/-- The jobs that meet a condition, the latest number first. -/
def listJobs (s : Db) (p : Job → Bool) : List Job :=
  sortDescending (fun j => j.jobId) (s.jobs.find p)

def getData (condition : JobCondition) (window : Except Thrown (ℕ × Option ℕ)) (withCode : Bool) :
    Action JobResponse := do
  let p ← cast condition
  let w ← cast window
  let data ← query fun s => (page w (listJobs s p)).map (entryOf s withCode)
  reply .success (some (.entries data))

def getList (p : Job → Bool) (window : Except Thrown (ℕ × Option ℕ)) : Action JobResponse := do
  let w ← cast window
  let data ← query fun s => (page w (listJobs s p)).map transactionOf
  reply .success (some (.transactions data))

/-- `revenueData`: the sum of the amounts of the paid jobs of a period. -/
def revenueData (dateOf : Job → ℤ) (isOwn : Job → Bool) (period : Period) : Action JsNum :=
  query fun s => ((s.jobs.find fun j =>
    decide (period.first ≤ dateOf j) && decide (dateOf j ≤ period.last) &&
      j.paymentStatus = some paymentSuccessful && isOwn j).map Job.amount).foldl JsNum.add (.fin 0)

def revenues (dateOf : Job → ℤ) (isOwn : Job → Bool) : List Period → Action (List (String × JsNum))
  | [] => pure []
  | period :: periods => do
    let sum ← revenueData dateOf isOwn period
    let rest ← revenues dateOf isOwn periods
    pure ((period.date, sum) :: rest)

def revenueIn (dateOf : Job → ℤ) (isOwn : Job → Bool) (s : Db) (period : Period) : JsNum :=
  ((s.jobs.find fun j =>
    decide (period.first ≤ dateOf j) && decide (dateOf j ≤ period.last) &&
      j.paymentStatus = some paymentSuccessful && isOwn j).map Job.amount).foldl JsNum.add (.fin 0)

/-- Uninterrupted, all sums are taken over the same jobs. -/
theorem run_revenues (dateOf : Job → ℤ) (isOwn : Job → Bool) (periods : List Period) (s : Db) :
    (revenues dateOf isOwn periods).run exec s =
      (s, .ok (periods.map fun period => (period.date, revenueIn dateOf isOwn s period))) := by
  induction periods with
  | nil => rfl
  | cons period periods ih =>
    have hrun : (revenues dateOf isOwn (period :: periods)).run exec s =
        (revenues dateOf isOwn periods >>= fun rest =>
          pure ((period.date, revenueIn dateOf isOwn s period) :: rest)).run exec s := rfl
    rw [hrun, Prog.run_bind, ih]
    rfl

end Services

section Handlers

variable (r : JobListRequest)

/-- `order_search === 'Today'`. -/
def isToday : Option Json → Bool
  | some (.str s) => s = "Today"
  | _ => false

/-- The condition on the status that `order_search` stands for. -/
def statusSearch : Except Thrown (JobStatus → Bool) :=
  if isToday r.orderSearch then .ok fun st => st = .accept || st = .start
  else if truthy r.orderSearch then
    (castForQuery (stringType r.regex) r.orderSearch).map fun p st => p (some st.text)
  else .ok fun _ => true

/-- The jobs of the caller as a worker, if the account is one, or else as a provider. -/
def ownJobs (j : Job) : Bool :=
  if r.caller.userType = workerType then j.workerData = some r.caller.userId
  else j.providerData = r.caller.userId

def assignJobListByProviderID : Action JobResponse :=
  getData ((statusSearch r).map fun p j => j.providerData = r.caller.userId && p j.jobStatus)
    r.window false

def jobListByWorkerID : Action JobResponse :=
  getData ((statusSearch r).map fun p j => j.workerData = some r.caller.userId && p j.jobStatus)
    r.window false

def jobListByUserID : Action JobResponse :=
  getData (.ok fun j => j.userId = r.caller.userId) r.window true

/-- The filter on the provider is commented out: any account may ask. -/
def jobDetailsByID : Action JobResponse :=
  checked [(badId r.jobId, .jobidEmpty)] do
    let p ← cast (jobById r.jobId)
    let data ← query fun s => (s.jobs.findOne p).map (detailsOf s)
    reply .success (some (.details data))

def jobTransactionHistory : Action JobResponse :=
  getList (fun j => ownJobs r j && j.jobStatus = .complete) r.window

def getDailyRevenue : Action JobResponse := do
  let data ← revenues Job.creationDate (ownJobs r) r.periods
  reply .success (some (.revenue data))

def getMonthlyRevenue : Action JobResponse := do
  let data ← revenues Job.createdAt (ownJobs r) r.periods
  reply .success (some (.revenue data))

end Handlers

section Requests

def JobListRequest.handle (r : JobListRequest) : Action JobResponse :=
  match r.handler with
  | .assignJobListByProviderID => DoQwik.assignJobListByProviderID r
  | .jobListByWorkerID => DoQwik.jobListByWorkerID r
  | .jobListByUserID => DoQwik.jobListByUserID r
  | .jobDetailsByID => DoQwik.jobDetailsByID r
  | .jobTransactionHistory => DoQwik.jobTransactionHistory r
  | .getDailyRevenue => DoQwik.getDailyRevenue r
  | .getMonthlyRevenue => DoQwik.getMonthlyRevenue r

inductive JobCall where
  | change (r : JobRequest)
  | list (r : JobListRequest)

def JobCall.caller : JobCall → Caller
  | .change r => r.caller
  | .list r => r.caller

def JobCall.program : JobCall → Action JobResponse
  | .change r => r.program
  | .list r => r.handle.catchAll serverError

def serveCall (s : Db) (r : JobCall) : Db := (r.program.run exec s).1

def answerCall (s : Db) (r : JobCall) : JobResponse :=
  match (r.program.run exec s).2 with
  | .ok a => a
  | .error e => serverError e

end Requests

end DoQwik
