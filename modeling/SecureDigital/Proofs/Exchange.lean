import SecureDigital.Command.Execute

/-!
# Exchanges: the commands of a run, read off its accesses

A write to the command register launches a command with the argument that was written last. The
`Exchange` is the launch with the answers that the driver collects until the next one: the values of
the events and of the response buffer, and the memory it reads. `exchanges` finds the exchanges in the
accesses of a run, and `Exchange.reply` is what the command came back with, told from the answers alone.
What is said about a response speaks of the words that were read (`Exchange.responseWord`).

`Adds xs es` says what a part of a run contributes: after any accesses, `xs` adds the exchanges `es`.
-/

namespace SecureDigital

structure Launch where
  index : UInt8
  argument : UInt32
deriving DecidableEq

namespace Access

/-- Whether the access reads an event or the response of the command in flight. -/
def isReport : Access → Bool
  | .read .cmdEvent _ | .read .dataEvent _ | .read (.response _) _ => true
  | _ => false

def isMemoryRead : Access → Bool
  | .readMemory .. => true
  | _ => false

def isAnswer (a : Access) : Bool := a.isReport || a.isMemoryRead

/-- Whether the access has no part in any command. -/
def isQuiet (a : Access) : Bool :=
  !a.isAnswer && match a with
    | .write .argument _ | .write .command _ => false
    | _ => true

def values (register : StatusRegister) (xs : List Access) : List UInt32 :=
  xs.filterMap fun
    | .read r value => if r = register then some value else none
    | _ => none

section Values

variable {register r : StatusRegister} {value : UInt32} {xs ys : List Access}

@[simp] theorem values_nil : values register [] = [] := rfl

@[simp] theorem values_append : values register (xs ++ ys) = values register xs ++ values register ys :=
  List.filterMap_append

@[simp] theorem values_cons_write {r : ControlRegister} :
    values register (.write r value :: xs) = values register xs := rfl

@[simp] theorem values_cons_read :
    values register (.read r value :: xs) =
      if r = register then value :: values register xs else values register xs := by
  by_cases h : r = register <;> simp [values, h]

@[simp] theorem values_map_read {words : List UInt32} :
    values register (words.map (.read r)) = if r = register then words else [] := by
  induction words with
  | nil => simp
  | cons w words ih =>
    rw [List.map_cons, values_cons_read, ih]
    by_cases h : r = register <;> simp [h]

theorem values_of_isMemoryRead (h : ∀ a ∈ xs, a.isMemoryRead) : values register xs = [] := by
  refine List.filterMap_eq_nil_iff.2 fun a ha => ?_
  have hmemory := h a ha
  cases a <;> first | rfl | cases hmemory

theorem values_of_forall_response (hregister : ∀ i, register ≠ .response i)
    (h : ∀ a ∈ xs, ∃ i value, a = .read (.response i) value) : values register xs = [] := by
  refine List.filterMap_eq_nil_iff.2 fun a ha => ?_
  obtain ⟨i, value, rfl⟩ := h a ha
  exact if_neg (hregister i).symm

theorem values_of_forall_write (h : ∀ a ∈ xs, ∃ r value, a = .write r value) : values register xs = [] := by
  refine List.filterMap_eq_nil_iff.2 fun a ha => ?_
  obtain ⟨r, value, rfl⟩ := h a ha
  rfl

end Values

/-- The bytes, if the access reads `length` of them from `address` up. -/
def bytes? (address : UInt32) (length : Nat) : Access → Option (Vector UInt8 length)
  | .readMemory a _ bytes =>
    if h : a = address ∧ bytes.size = length then some ⟨bytes, h.2⟩ else none
  | _ => none

theorem isAnswer_of_isReport {a : Access} (h : a.isReport) : a.isAnswer := by
  simp [isAnswer, h]

theorem isAnswer_of_isMemoryRead {a : Access} (h : a.isMemoryRead) : a.isAnswer := by
  simp [isAnswer, h]

end Access

namespace Phase

/-- How a phase ended that reported `events`: as the last one says, or by a timeout. -/
def outcome (phase : Phase) (events : List UInt32) : Status :=
  (events.getLast?.bind fun word => Status.ofEvent? phase (Event.ofWord word)).getD .timeout

/-- Whether the wait for a phase is over after `events`: the last one has the done bit, or `limit` lets
no more be read. -/
def Over (limit : PollLimit) (events : List UInt32) : Prop :=
  (∃ word, events.getLast? = some word ∧ (Event.ofWord word).done) ∨
    ∃ n, limit = .attempts n ∧ events.length = n.toNat

end Phase

structure Exchange where
  argument : UInt32
  /-- The word that launched the command. -/
  word : UInt32
  /-- The answers up to the next launch, in order. -/
  answers : List Access
deriving DecidableEq

namespace Exchange

def index (e : Exchange) : UInt8 := (Command.indexField.read e.word).toUInt8

def launch (e : Exchange) : Launch := ⟨e.index, e.argument⟩

def expectsResponse (e : Exchange) : Bool := Command.responseField.read e.word ≠ 0

def hasData (e : Exchange) : Bool := Command.transferField.read e.word ≠ 0

def values (e : Exchange) (register : StatusRegister) : List UInt32 :=
  Access.values register e.answers

/-- What was read from word `i` of the response buffer, zero if it was not read. -/
def responseWord (e : Exchange) (i : UInt8) : UInt32 := (e.values (.response i)).headD 0

def response (e : Exchange) : Response :=
  #v[e.responseWord 0, e.responseWord 1, e.responseWord 2, e.responseWord 3]

/-- The four words in a row, the first one on top. -/
def responseBits (e : Exchange) : BitVec 128 :=
  (e.responseWord 0).toBitVec ++ (e.responseWord 1).toBitVec ++ (e.responseWord 2).toBitVec ++
    (e.responseWord 3).toBitVec

def commandStatus (e : Exchange) : Status := Phase.outcome .command (e.values .cmdEvent)

/-- How the data phase ended if there was one, else the command phase. -/
def status (e : Exchange) : Status :=
  if e.commandStatus = .ok ∧ e.hasData then Phase.outcome .data (e.values .dataEvent)
  else e.commandStatus

def reply (e : Exchange) : Reply := ⟨e.status, e.commandStatus, e.response⟩

/-- The value `a`, provided the command ended well. -/
def onSuccess {α : Type} (e : Exchange) (a : α) : Option α := if e.status = .ok then some a else none

@[simp] theorem reply_long (e : Exchange) : e.reply.long = e.responseBits := rfl

@[simp] theorem reply_relativeAddress (e : Exchange) :
    e.reply.relativeAddress = (e.responseWord 3 >>> 16).toUInt16 := rfl

@[simp] theorem reply_onSuccess {α : Type} (e : Exchange) (f : Reply → α) :
    e.reply.onSuccess f = e.onSuccess (f e.reply) := rfl

/-- The first `length` bytes that were read from `address` up. -/
def block? (e : Exchange) (address : UInt32) (length : Nat) : Option (Vector UInt8 length) :=
  e.answers.findSome? (Access.bytes? address length)

/-- Whether the command has run to its end: its phases are over and its response has been read. -/
structure Ended (config : Config) (e : Exchange) : Prop where
  command : Phase.Over config.cmdPoll (e.values .cmdEvent)
  response : e.expectsResponse → e.values (.response 3) ≠ []
  data : e.commandStatus = .ok → e.hasData → Phase.Over config.dataPoll (e.values .dataEvent)

def andThen (e : Exchange) (answers : List Access) : Exchange :=
  { e with answers := e.answers ++ answers }

/-- Reading memory does not change what the command came back with. -/
theorem reply_andThen {e : Exchange} {more : List Access} (h : ∀ a ∈ more, a.isMemoryRead) :
    (e.andThen more).reply = e.reply := by
  have hvalues (register : StatusRegister) : (e.andThen more).values register = e.values register := by
    rw [values, values, andThen, Access.values_append, Access.values_of_isMemoryRead h, List.append_nil]
  simp only [reply, response, responseWord, status, commandStatus, hvalues]
  rfl

theorem block?_andThen_readMemory (e : Exchange) (h : ∀ a ∈ e.answers, a.isReport) (address : UInt32)
    {length : Nat} (block : Vector UInt8 length) :
    (e.andThen [.readMemory address length block.toArray]).block? address length = some block := by
  have hreports : e.answers.findSome? (Access.bytes? address length) = none := by
    refine List.findSome?_eq_none_iff.2 fun a ha => ?_
    have hreport := h a ha
    cases a <;> first | rfl | cases hreport
  have hblock : Access.bytes? address length (.readMemory address length block.toArray) = some block :=
    dif_pos ⟨rfl, block.size_toArray⟩
  rw [block?, andThen, List.findSome?_append, hreports, Option.none_or, List.findSome?_singleton, hblock]

end Exchange

/-- What is known of the commands after a part of a run. -/
structure Log where
  argument : UInt32
  /-- The exchanges so far, the latest one first. -/
  exchanges : List Exchange

namespace Log

def empty : Log := ⟨0, []⟩

def observe (log : Log) (a : Access) : Log :=
  match a with
  | .write .argument value => { log with argument := value }
  | .write .command word => { log with exchanges := ⟨log.argument, word, []⟩ :: log.exchanges }
  | _ =>
    if a.isAnswer then
      match log.exchanges with
      | [] => log
      | e :: es => { log with exchanges := e.andThen [a] :: es }
    else log

theorem observe_of_isQuiet {log : Log} {a : Access} (h : a.isQuiet) : log.observe a = log := by
  unfold observe
  split
  · cases h
  · cases h
  · have hans : a.isAnswer = false := by
      simp only [Access.isQuiet, Bool.and_eq_true, Bool.not_eq_true'] at h
      exact h.1
    rw [hans]
    rfl

theorem foldl_of_isQuiet {log : Log} {xs : List Access} (h : ∀ a ∈ xs, a.isQuiet) :
    xs.foldl observe log = log := by
  induction xs with
  | nil => rfl
  | cons a xs ih =>
    obtain ⟨ha, hxs⟩ := List.forall_mem_cons.1 h
    rw [List.foldl_cons, observe_of_isQuiet ha]
    exact ih hxs

theorem observe_of_isAnswer {argument : UInt32} {e : Exchange} {es : List Exchange} {a : Access}
    (h : a.isAnswer) : (⟨argument, e :: es⟩ : Log).observe a = ⟨argument, e.andThen [a] :: es⟩ := by
  unfold observe
  split
  · cases h
  · cases h
  · rw [if_pos h]

theorem foldl_of_isAnswer {argument : UInt32} {e : Exchange} {es : List Exchange} {xs : List Access}
    (h : ∀ a ∈ xs, a.isAnswer) :
    xs.foldl observe ⟨argument, e :: es⟩ = ⟨argument, e.andThen xs :: es⟩ := by
  induction xs generalizing e with
  | nil => simp [Exchange.andThen]
  | cons a xs ih =>
    obtain ⟨ha, hxs⟩ := List.forall_mem_cons.1 h
    rw [List.foldl_cons, observe_of_isAnswer ha, ih hxs]
    simp [Exchange.andThen]

end Log

def exchanges (xs : List Access) : List Exchange :=
  (xs.foldl Log.observe .empty).exchanges.reverse

def launches (xs : List Access) : List Launch := (exchanges xs).map Exchange.launch

theorem launches_append_of_isQuiet {ys : List Access} (h : ∀ a ∈ ys, a.isQuiet) (xs : List Access) :
    launches (xs ++ ys) = launches xs := by
  have hexchanges : exchanges (xs ++ ys) = exchanges xs := by
    rw [exchanges, List.foldl_append, Log.foldl_of_isQuiet h]
    rfl
  exact congrArg (List.map Exchange.launch) hexchanges

def Adds (xs : List Access) (es : List Exchange) : Prop :=
  ∀ log : Log, (xs.foldl Log.observe log).exchanges = es.reverse ++ log.exchanges

namespace Adds

variable {xs ys : List Access} {es fs : List Exchange}

theorem exchanges_eq (h : Adds xs es) : exchanges xs = es := by
  have hlog : (xs.foldl Log.observe .empty).exchanges = es.reverse ++ [] := h .empty
  rw [exchanges, hlog, List.append_nil, List.reverse_reverse]

theorem append (h : Adds xs es) (h' : Adds ys fs) : Adds (xs ++ ys) (es ++ fs) := by
  intro log
  rw [List.foldl_append, h', h, List.reverse_append, List.append_assoc]

theorem of_isQuiet (h : ∀ a ∈ xs, a.isQuiet) : Adds xs [] := by
  intro log
  rw [Log.foldl_of_isQuiet h]
  rfl

theorem nil : Adds [] [] := of_isQuiet nofun

theorem of_argument {value : UInt32} (h : Adds xs es) : Adds (.write .argument value :: xs) es :=
  fun log => h { log with argument := value }

theorem andThen {e : Exchange} (h : Adds xs (es ++ [e])) (hys : ∀ a ∈ ys, a.isAnswer) :
    Adds (xs ++ ys) (es ++ [e.andThen ys]) := by
  intro log
  have hlog := h log
  rcases hxs : xs.foldl Log.observe log with ⟨argument, fs⟩
  rw [hxs, List.reverse_append] at hlog
  obtain rfl : fs = e :: (es.reverse ++ log.exchanges) := hlog
  rw [List.foldl_append, hxs, Log.foldl_of_isAnswer hys, List.reverse_append]
  rfl

/-- A command that `arm` prepares, and its answers. -/
theorem of_launch {argument word : UInt32} {arm : List Access} (harm : ∀ a ∈ arm, a.isQuiet)
    (hys : ∀ a ∈ ys, a.isAnswer) :
    Adds (.write .argument argument :: arm ++ .write .command word :: ys) [⟨argument, word, ys⟩] := by
  intro log
  rw [List.cons_append, List.foldl_cons, List.foldl_append, Log.foldl_of_isQuiet harm, List.foldl_cons]
  show (ys.foldl Log.observe ⟨argument, ⟨argument, word, []⟩ :: log.exchanges⟩).exchanges = _
  rw [Log.foldl_of_isAnswer hys]
  simp [Exchange.andThen]

end Adds

end SecureDigital
