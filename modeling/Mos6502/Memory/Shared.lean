import Mos6502.Memory.Dump

/-!
# Shared memory

Several handles and windows on buffers of byte cells.  A handle refers to its buffer by a number, and so does a window;
sharing a handle and making a window copy the reference and not the cells, so that a write through one handle is seen
through all that refer to the same buffer.  The policy for pulled stack cells belongs to the handle, and a new handle
starts with the policy of the one it is made from.
-/

namespace Mos6502

/-- A memory in one line, with its size and its policy. -/
def Memory.text (m : Memory) : String :=
  "Memory \x7b size: 65536 bytes, pop_policy: " ++ m.popPolicy.name.capitalize ++ " \x7d"

/-- A handle on the cells of a buffer. -/
structure Handle where
  buffer : Nat
  popPolicy : PopPolicy
  deriving DecidableEq, Repr

/-- A window on the cells of a buffer. -/
structure View extends Window where
  buffer : Nat
  deriving DecidableEq, Repr

/-- Buffers with their handles and windows, all numbered from zero. -/
structure SharedMemory where
  buffers : Array Cells
  handles : Array Handle
  views : Array View

/-- What can be asked of a handle. -/
inductive HandleRequest where
  | read (address length : UInt64)
  | write (address : UInt64) (bytes : List UInt8)
  | readByte (address : UInt64)
  | writeByte (address : UInt64) (byte : UInt8)
  | push (byte pointer : UInt8)
  | pop (pointer : UInt8)
  | clear
  | popPolicy
  | setPopPolicy (policy : PopPolicy)
  | size
  | text
  | dump (start lines : UInt64)
  /-- Makes a new handle. -/
  | share
  /-- Makes a new window. -/
  | view (start length : UInt64)

/-- What can be asked of a window. -/
inductive WindowRequest where
  | read (address length : UInt64)
  | write (address : UInt64) (bytes : List UInt8)
  | snapshot
  | contains (address : UInt64)
  | extent
  | text
  | dump (start lines : UInt64)

/-- What a request is answered with. -/
inductive MemoryAnswer where
  | done
  | byte (value : UInt8)
  | bytes (values : List UInt8)
  | policy (value : PopPolicy)
  | truth (value : Bool)
  | number (value : Nat)
  | line (text : String)
  | lines (texts : List String)
  | extent (window : Window)
  | refused (error : MemoryError)

/-- The answer made from a result, or the refusal. -/
def MemoryAnswer.ofExcept (answer : α → MemoryAnswer) : Except MemoryError α → MemoryAnswer
  | .ok value => answer value
  | .error e => .refused e

namespace SharedMemory

/-- One buffer with one handle and no window. -/
def ofMemory (m : Memory) : SharedMemory :=
  { buffers := #[m.cells], handles := #[{ buffer := 0, popPolicy := m.popPolicy }], views := #[] }

/-- What a handle has done to the cells of its buffer, or the refusal, which leaves them as they are. -/
def storing (s : SharedMemory) (h : Handle) : Except MemoryError Memory → MemoryAnswer × SharedMemory
  | .ok m => (.done, { s with buffers := s.buffers.setIfInBounds h.buffer m.cells })
  | .error e => (.refused e, s)

/-- A request through a handle; nothing for a handle that does not exist. -/
def perform? (s : SharedMemory) (handle : Nat) (request : HandleRequest) : Option (MemoryAnswer × SharedMemory) := do
  let h ← s.handles[handle]?
  let cells ← s.buffers[h.buffer]?
  let m : Memory := { cells, popPolicy := h.popPolicy }
  some <| match request with
    | .read a n => (.ofExcept .bytes (m.read a n), s)
    | .write a bytes => s.storing h (m.write a bytes)
    | .readByte a => (.ofExcept .byte (m.readByte a), s)
    | .writeByte a b => s.storing h (m.writeByte a b)
    | .push b p => s.storing h (.ok (m.push b p))
    | .pop p => (.byte (m.pop p).1, (s.storing h (.ok (m.pop p).2)).2)
    | .clear => s.storing h (.ok m.zeroed)
    | .popPolicy => (.policy h.popPolicy, s)
    | .setPopPolicy popPolicy =>
      (.done, { s with handles := s.handles.setIfInBounds handle { h with popPolicy } })
    | .size => (.number memorySize, s)
    | .text => (.line m.text, s)
    | .dump start lines => (.ofExcept .lines (m.dump start lines), s)
    | .share => (.number s.handles.size, { s with handles := s.handles.push h })
    | .view start length =>
      match Window.of? start length with
      | .ok w => (.number s.views.size, { s with views := s.views.push { w with buffer := h.buffer } })
      | .error e => (.refused e, s)

/-- A request through a window, which never changes the cells; nothing for a window that does not exist. -/
def look? (s : SharedMemory) (window : Nat) (request : WindowRequest) : Option MemoryAnswer := do
  let v ← s.views[window]?
  let cells ← s.buffers[v.buffer]?
  let m : Memory := { cells, popPolicy := .preserve }
  some <| match request with
    | .read a n => .ofExcept .bytes (v.read m a n)
    | .write a _ => .refused (.readOnly a)
    | .snapshot => .ofExcept .bytes (v.snapshot m)
    | .contains a => .ofExcept .truth (v.contains a)
    | .extent => .extent v.toWindow
    | .text => .ofExcept .line v.text
    | .dump start lines => .ofExcept .lines (v.dump m start lines)

end SharedMemory

end Mos6502
