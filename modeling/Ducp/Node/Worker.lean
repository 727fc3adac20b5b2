import Ducp.Node.Client
import Ducp.Signing

/-!
# The worker

The worker connects to a sequencer and runs tasks one after another, as their requester and as their
provider: it submits a task, claims it, executes it, proves it, and reports what was settled.
-/

namespace Ducp

open Serde

/-- The command line of a worker. -/
structure Worker.Cli where
  sequencer : String := "http://127.0.0.1:8645"
  tasks : BitVec 64 := 5
  requesterSeed : String := "0101010101010101010101010101010101010101010101010101010101010101"
  providerSeed : String := "0202020202020202020202020202020202020202020202020202020202020202"

namespace Worker

/-! ## Texts -/

/-- An array of 32 bytes from a hexadecimal text; anything else ends the worker. -/
def array32 [Hex] (text : String) : Option (Bytes 32) := do
  let bytes ← (Hex.decode text).toOption
  if full : bytes.length = 32 then some ⟨bytes, full⟩ else none

/-- The characters which fill the first bytes of a text, unless it is shorter or a character crosses
the end. -/
def sliceBytes : ℕ → List Char → Option (List Char)
  | 0, _ => some []
  | _ + 1, [] => none
  | size + 1, letter :: rest =>
      if letter.utf8Size ≤ size + 1 then
        (letter :: ·) <$> sliceBytes (size + 1 - letter.utf8Size) rest
      else
        none

/-- The first 16 bytes of a text. -/
def short (text : String) : Option String := (sliceBytes 16 text.toList).map String.ofList

section Texts

variable [Hex]

/-- An array of 32 bytes is read back from its text. -/
theorem array32_encode (hex : Hex.Lawful) (array : Bytes 32) :
    array32 (Hex.encode array.toList) = some array := by
  simp [array32, hex.decode_encode, Except.toOption, array.length_toList]

omit [Hex] in
/-- Characters of one byte are sliced like a list. -/
theorem sliceBytes_take {letters : List Char} (single : ∀ letter ∈ letters, letter.utf8Size = 1)
    {size : ℕ} (fits : size ≤ letters.length) :
    sliceBytes size letters = some (letters.take size) := by
  induction letters generalizing size with
  | nil =>
      obtain rfl := Nat.le_zero.mp fits
      rfl
  | cons letter rest ih =>
      cases size with
      | zero => rfl
      | succ size =>
          have one := single letter List.mem_cons_self
          have sliced := ih (fun other member => single other (List.mem_cons_of_mem _ member))
            (Nat.le_of_succ_le_succ fits)
          simp [sliceBytes, one, sliced]

/-- The text of an array of 32 bytes is long enough to be shortened. -/
theorem short_encode (hex : Hex.Lawful) (paired : Hex.Paired) (array : Bytes 32) :
    short (Hex.encode array.toList) =
      some (String.ofList ((Hex.encode array.toList).toList.take 16)) := by
  have single (digit : Char) (member : digit ∈ hexDigits) : digit.utf8Size = 1 := by
    have all : ∀ value < 16, value.digitChar.utf8Size = 1 := by decide
    rw [show hexDigits = (List.range 16).map Nat.digitChar by decide] at member
    obtain ⟨value, small, rfl⟩ := List.mem_map.mp member
    exact all value (List.mem_range.mp small)
  have long : 16 ≤ (Hex.encode array.toList).toList.length := by
    rw [paired, array.length_toList]
    norm_num
  rw [short, sliceBytes_take (fun digit member => single digit (hex.digits _ digit member)) long]
  rfl

end Texts

/-- A recorded efficiency, in units and six digits of millionths. -/
def efficiency : Option Quant → String
  | some value =>
      toString (value.microQ.toNat / 1000000) ++ "." ++
        String.ofList (List.leftpad 6 '0' (toString (value.microQ.toNat % 1000000)).toList)
  | none => "null"

/-- What the worker prints once it is connected. -/
def connectedLine (cli : Cli) (head : HeadView) : String :=
  "connected to " ++ cli.sequencer ++ " — head height " ++ toString head.height.toNat ++
    " epoch " ++ toString head.epoch.toNat

/-- What the worker prints for a settled task. -/
def settledLine (i : BitVec 64) (ucuCount : Ucu) (q : Option Quant) (task : String) : String :=
  "task " ++ toString i.toNat ++ ": settled 𝕌=" ++ toString ucuCount.toNat ++
    " ℚ=" ++ efficiency q ++ " (task " ++ task ++ ")"

/-- What the worker prints at the end. -/
def doneLine (cli : Cli) (totalUcu : Ucu) (head : HeadView) (stateRoot : String) : String :=
  "done — " ++ toString cli.tasks.toNat ++ " tasks, total 𝕌=" ++ toString totalUcu.toNat ++
    ", head height " ++ toString head.height.toNat ++ " state_root " ++ stateRoot

/-! ## Tasks -/

/-- The input of a task. -/
def taskInput (i : BitVec 64) : List UInt8 :=
  ("beachhead-task-" ++ toString i.toNat).toUTF8.toList

/-- The limits of every task. -/
def taskLimits : Limits where
  maxUcu := 10 * ucuScale
  maxMemoryBytes := 16 * 1024 * 1024

/-- The body of a task. -/
def taskBody (program input : ContentId) (i : BitVec 64) : TaskBody where
  ir := .wasm
  program
  input
  limits := taskLimits
  tier := .sampledReexec
  benchmark := 0
  deadline := BitVec.allOnes 64
  failurePolicy := .returnOnFailure
  nonce := i

/-- The proof of a task. -/
def taskProof [Crypto] (task : TaskId) (prov : Identity) (outcome : ExecOutcome) :
    ComputeProof where
  task
  provider := prov
  output := contentId outcome.output
  resultHash := outcome.resultHash
  ucuCount := outcome.ucuCount
  benchmark := 0
  tierData := .sampledReexec
  powerSeal := none

/-! ## The loop -/

/-- What the loop carries from task to task. -/
structure Loop where
  provNonce : BitVec 64
  totalUcu : Ucu
  lines : List String

variable [Crypto] [Keys] [Runtime] [Hex]

/-- One task: submit, claim, execute, prove, report. -/
def runTask (reqSeed provSeed : Bytes 32) (bench : Benchmark) (program : List UInt8)
    (progId : String) (loop : Loop) (i : BitVec 64) : Session Request Json Loop := do
  let input := taskInput i
  let inId := (← Client.putBlob (Hex.encode input)).contentId
  let body := taskBody (← array32 progId) (← array32 inId) i
  let task ← body.taskId.toOption
  let submission ← (SignedTx.sign reqSeed (.submitTask body) i).toOption
  let _ ← Client.submitTask submission
  let claim ← (SignedTx.sign provSeed (.claimTask task) loop.provNonce).toOption
  let _ ← Client.claimTask claim
  let provNonce ← (Checked.add loop.provNonce 1).toOption
  let outcome ← (WasmtimeDvm.execute program input body.limits bench).toOption
  let proof := taskProof task (Keys.identity provSeed) outcome
  let proven ← (SignedTx.sign provSeed (.submitProof proof) provNonce).toOption
  let _ ← Client.submitProof proven
  let provNonce ← (Checked.add provNonce 1).toOption
  let q ← Client.getQEntry (Hex.encode task.toList)
  let totalUcu ← (Checked.add loop.totalUcu outcome.ucuCount).toOption
  let name ← short (Hex.encode task.toList)
  return { provNonce, totalUcu, lines := loop.lines ++ [settledLine i outcome.ucuCount q.q name] }

/-- The worker, which ends with the lines it has printed. -/
def main (cli : Cli) : Session Request Json (List String) := do
  let reqSeed ← array32 cli.requesterSeed
  let provSeed ← array32 cli.providerSeed
  let bench ← Benchmark.devnet.toOption
  let program ← echoModule.toOption
  let progId := (← Client.putBlob (Hex.encode program)).contentId
  let head ← Client.getHead
  let start := { provNonce := 0, totalUcu := 0, lines := [connectedLine cli head] }
  let loop ← ((List.range cli.tasks.toNat).map (BitVec.ofNat 64)).foldlM
    (runTask reqSeed provSeed bench program progId) start
  let head ← Client.getHead
  let root ← short head.stateRoot
  return loop.lines ++ [doneLine cli loop.totalUcu head root]

end Worker

end Ducp
