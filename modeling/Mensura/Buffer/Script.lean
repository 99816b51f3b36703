import Mensura.Buffer.Cursor

namespace Mensura

/-- A question to a reader. Those that look at the rest of it as a whole leave it where it is. -/
inductive ReaderStep where
  | next
  | nth (count : Nat)
  | len
  | sizeHint
  | take (count : Nat)
  | rest
  | count
  | last

inductive ReaderAnswer (α : Type) where
  | element (x : Option α)
  | size (n : Nat)
  | bounds (lower : Nat) (upper : Option Nat)
  | elements (xs : List α)

namespace ReaderStep

variable {α : Type}

def apply (r : Reader α) : ReaderStep → ReaderAnswer α × Reader α
  | .next => (.element r.pull.1, r.pull.2)
  | .nth k => (.element (r.pullNth k).1, (r.pullNth k).2)
  | .len => (.size r.remaining, r)
  | .sizeHint => (.bounds r.remaining (some r.remaining), r)
  | .take k => (.elements (r.take k).1, (r.take k).2)
  | .rest => (.elements r.toList, r)
  | .count => (.size r.toList.length, r)
  | .last => (.element r.toList.getLast?, r)

/-- The answers of one reader to a list of steps. -/
def run (r : Reader α) : List ReaderStep → List (ReaderAnswer α)
  | [] => []
  | step :: steps =>
    let (answer, r) := step.apply r
    answer :: run r steps

end ReaderStep

/-- An order to a cursor: one value, or several at once. -/
inductive CursorStep where
  | write (value : Float)
  | fill (values : Array Float)

/-- What came of an order, and where the cursor is afterwards. An order to
fill answers how many values were written. -/
structure CursorAnswer where
  result : Except BufferError (Option Nat)
  position : Nat
  remaining : Nat

namespace CursorStep

variable {d : Dimension}

def apply (c : Cursor d) : CursorStep → Except BufferError (Option Nat) × Cursor d
  | .write value =>
    match c.write ⟨value⟩ with
    | (.ok (), c) => (.ok none, c)
    | (.error error, c) => (.error error, c)
  | .fill values =>
    match c.fill ((Reader.ofArray values).map Quantity.mk) with
    | (.ok count, c) => (.ok (some count), c)
    | (.error error, c) => (.error error, c)

/-- The answers of one cursor to a list of orders, and the cursor behind them. -/
def run (c : Cursor d) : List CursorStep → List CursorAnswer × Cursor d
  | [] => ([], c)
  | step :: steps =>
    let (result, c) := step.apply c
    let answer := ⟨result, c.position, c.remaining⟩
    let (answers, c) := run c steps
    (answer :: answers, c)

end CursorStep

/-- A call on a buffer. -/
inductive BufferStep where
  | shape
  | get (d : Dimension) (index : Nat)
  | scalar (d : Dimension)
  | read (d : Dimension) (steps : List ReaderStep)
  | set (d : Dimension) (index : Nat) (value : Float)
  | write (d : Dimension) (steps : List CursorStep)

inductive BufferAnswer where
  | shape (layout : Layout) (unit : MeasureUnit)
  | number (x : Float)
  | read (answers : List (ReaderAnswer Float))
  | done
  | written (answers : List CursorAnswer)
  | refused (error : BufferError)

namespace BufferStep

/-- The answer to a call, and the buffer after it. -/
def apply (b : Buffer) : BufferStep → BufferAnswer × Buffer
  | .shape => (.shape b.layout b.unit, b)
  | .get d index =>
    match b.get d index with
    | .ok q => (.number q.value, b)
    | .error error => (.refused error, b)
  | .scalar d =>
    match b.scalar d with
    | .ok q => (.number q.value, b)
    | .error error => (.refused error, b)
  | .read d steps =>
    match b.reader d with
    | .ok r => (.read (ReaderStep.run (r.map Quantity.value) steps), b)
    | .error error => (.refused error, b)
  | .set d index value =>
    match b.set index (⟨value⟩ : Quantity d) with
    | (.ok (), b) => (.done, b)
    | (.error error, b) => (.refused error, b)
  | .write d steps =>
    match b.cursor d with
    | .ok c =>
      let (answers, c) := CursorStep.run c steps
      (.written answers, c.buffer)
    | .error error => (.refused error, b)

/-- The answers to a list of calls, each with the buffer after it. -/
def run (b : Buffer) : List BufferStep → List (BufferAnswer × Buffer)
  | [] => []
  | step :: steps =>
    let result := step.apply b
    result :: run result.2 steps

end BufferStep

end Mensura
