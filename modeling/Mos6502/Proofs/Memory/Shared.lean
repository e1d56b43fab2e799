import Mos6502.Memory.Shared
import Mos6502.Proofs.Memory.Flat
import Mos6502.Proofs.Registers

/-!
# One store behind all handles

A `FlatStore` is what a shared memory is meant to be: one array of bytes by numbers, the policies of the handles in their
order, and the windows.  All that is asked of it through handles and windows is answered from the array as it is at that
moment, and what a handle stores is stored in the array.  The handles and windows that are made from one handle all refer
to its buffer (`SharedMemory.isShared_serve`), and as long as they do, a shared memory answers every sequence of requests
as the flat store does (`flat_serveAll`), if no range that is asked for ends at 2^64 or beyond.
-/

namespace Mos6502

/-- A request, through a handle or through a window. -/
inductive Access where
  | handle (index : Nat) (request : HandleRequest)
  | window (index : Nat) (request : WindowRequest)

/-- One array of bytes, the policies of the handles, and the windows. -/
structure FlatStore where
  bytes : Flat
  policies : List PopPolicy
  windows : List Window

/-! ### What is meant -/

namespace FlatStore

/-- The store after a change of its bytes, or the refusal, which leaves it as it is. -/
def storing (f : FlatStore) : Except MemoryError Flat → MemoryAnswer × FlatStore
  | .ok bytes => (.done, { f with bytes })
  | .error e => (.refused e, f)

/-- A request through a handle with a policy. -/
def perform (f : FlatStore) (handle : Nat) (policy : PopPolicy) : HandleRequest → MemoryAnswer × FlatStore
  | .read a n => (.ofExcept .bytes (f.bytes.read a n), f)
  | .write a data => f.storing (f.bytes.write a data)
  | .readByte a => (if a.toNat < memorySize then .byte (f.bytes a.toNat) else .refused (.address a), f)
  | .writeByte a byte =>
    f.storing (if a.toNat < memorySize then .ok (f.bytes.overwrite a.toNat [byte]) else .error (.address a))
  | .push byte pointer => f.storing (.ok (f.bytes.overwrite (256 + pointer.toNat) [byte]))
  | .pop pointer =>
    (.byte (f.bytes (256 + pointer.toNat)),
      if policy = .clear then { f with bytes := f.bytes.overwrite (256 + pointer.toNat) [0] } else f)
  | .clear => f.storing (.ok fun _ => 0)
  | .popPolicy => (.policy policy, f)
  | .setPopPolicy policy => (.done, { f with policies := f.policies.set handle policy })
  | .size => (.number memorySize, f)
  | .text => (.line (Memory.blank policy).text, f)
  | .dump start lines => (.ofExcept .lines (dumpWith f.bytes.read start lines), f)
  | .share => (.number f.policies.length, { f with policies := f.policies ++ [policy] })
  | .view start length =>
    if start.toNat + length.toNat ≤ memorySize then
      (.number f.windows.length, { f with windows := f.windows ++ [⟨start, length⟩] })
    else (.refused (.readOverflow length start), f)

/-- A request through a window. -/
def look (f : FlatStore) (w : Window) : WindowRequest → MemoryAnswer
  | .read a n => .ofExcept .bytes (f.bytes.readWithin w a n)
  | .write a _ => .refused (.readOnly a)
  | .snapshot => .bytes (f.bytes.range w.start.toNat w.length.toNat)
  | .contains a => .truth (w.start.toNat ≤ a.toNat ∧ a.toNat < w.start.toNat + w.length.toNat)
  | .extent => .extent w
  | .text => .ofExcept .line w.text
  | .dump start lines => .ofExcept .lines (dumpWith (f.bytes.readWithin w) start lines)

/-- A request with its answer; there is none if the handle or the window does not exist. -/
def serve (f : FlatStore) : Access → Option MemoryAnswer × FlatStore
  | .handle index request =>
    match f.policies[index]? with
    | some policy => (f.perform index policy request).map some id
    | none => (none, f)
  | .window index request => (f.windows[index]?.map fun w => f.look w request, f)

/-- Whether all windows lie inside the memory. -/
def IsSound (f : FlatStore) : Prop :=
  ∀ w ∈ f.windows, w.IsInside

theorem isSound_storing {f : FlatStore} (h : f.IsSound) (result : Except MemoryError Flat) :
    (f.storing result).2.IsSound := by
  cases result <;> exact h

theorem isSound_perform {f : FlatStore} (h : f.IsSound) (handle : Nat) (policy : PopPolicy) (request : HandleRequest) :
    (f.perform handle policy request).2.IsSound := by
  cases request with
  | write a data => exact isSound_storing h _
  | writeByte a byte => exact isSound_storing h _
  | pop pointer =>
    unfold perform
    dsimp only
    split <;> exact h
  | view start length =>
    unfold perform
    dsimp only
    split
    · rename_i hle
      intro w hw
      obtain hw | hw := List.mem_append.1 hw
      · exact h w hw
      · rw [List.mem_singleton.1 hw]
        exact hle
    · exact h
  | _ => exact h

theorem isSound_serve {f : FlatStore} (h : f.IsSound) (access : Access) : (f.serve access).2.IsSound := by
  cases access with
  | window index request => exact h
  | handle index request =>
    unfold serve
    dsimp only
    split
    · exact isSound_perform h index _ request
    · exact h

end FlatStore

/-- Whether no range that is asked for ends at 2^64 or beyond. -/
def HandleRequest.Fits : HandleRequest → Prop
  | .read address length | .view address length => address.toNat + length.toNat < UInt64.size
  | .write address data => address.toNat + data.length < UInt64.size
  | .dump start lines => start.toNat + 16 * lines.toNat < UInt64.size
  | _ => True

@[inherit_doc HandleRequest.Fits]
def WindowRequest.Fits : WindowRequest → Prop
  | .read address length => address.toNat + length.toNat < UInt64.size
  | .dump start lines => start.toNat + 16 * lines.toNat < UInt64.size
  | _ => True

@[inherit_doc HandleRequest.Fits]
def Access.Fits : Access → Prop
  | .handle _ request => request.Fits
  | .window _ request => request.Fits

/-! ### What is done -/

/-- What pulling a cell comes to in numbers. -/
theorem Memory.flat_pop (m : Memory) (pointer : UInt8) :
    (m.pop pointer).1 = m.cells.flat (256 + pointer.toNat) ∧
      (m.pop pointer).2.cells.flat =
        if m.popPolicy = .clear then m.cells.flat.overwrite (256 + pointer.toNat) [0] else m.cells.flat := by
  have hset := m.flat_set (stackCell pointer) 0
  have hget := m.get_eq_flat (stackCell pointer)
  rw [toNat_stackCell] at hset hget
  unfold pop
  cases m.popPolicy with
  | preserve => exact ⟨hget, rfl⟩
  | clear => exact ⟨hget, hset⟩

namespace SharedMemory

/-- The first buffer in numbers, with the handles and windows as if they all referred to it. -/
def flat (s : SharedMemory) : FlatStore :=
  { bytes := (s.buffers[0]?.map Cells.flat).getD fun _ => 0
    policies := s.handles.toList.map Handle.popPolicy
    windows := s.views.toList.map View.toWindow }

/-- Whether there is one buffer, and all handles and windows refer to it. -/
structure IsShared (s : SharedMemory) : Prop where
  buffers : s.buffers.size = 1
  handles : ∀ h ∈ s.handles, h.buffer = 0
  views : ∀ v ∈ s.views, v.buffer = 0

/-- A request with its answer; there is none if the handle or the window does not exist. -/
def serve (s : SharedMemory) : Access → Option MemoryAnswer × SharedMemory
  | .handle index request =>
    match s.perform? index request with
    | some (answer, s') => (some answer, s')
    | none => (none, s)
  | .window index request => (s.look? index request, s)

variable {s s' : SharedMemory} {h : Handle} {v : View} {cells : Cells} {handle index : Nat} {answer : MemoryAnswer}

theorem flat_eq (hc : s.buffers[0]? = some cells) : s.flat = { s.flat with bytes := cells.flat } := by
  unfold flat
  rw [hc]
  rfl

/-- A reference leads to the cells that the flat store shows. -/
theorem exists_cells (hs : s.IsShared) {buffer : Nat} (hb : buffer = 0) :
    ∃ cells, s.buffers[buffer]? = some cells ∧ s.flat.bytes = cells.flat := by
  obtain ⟨cells, hcells⟩ := Array.size_eq_one_iff.1 hs.buffers
  have hc : s.buffers[0]? = some cells := by
    rw [hcells]
    rfl
  exact ⟨cells, by rw [hb, hc], by rw [flat_eq hc]⟩

/-! ### One request -/

private theorem flat_storing (hs : s.IsShared) (hh : h.buffer = 0) (result : Except MemoryError Memory) :
    (s.storing h result).map id flat = s.flat.storing (result.map (·.cells.flat)) := by
  cases result with
  | error e => rfl
  | ok m =>
    have hbuffer : (s.buffers.setIfInBounds h.buffer m.cells)[0]? = some m.cells := by
      rw [hh, Array.getElem?_setIfInBounds_self_of_lt (by rw [hs.buffers]; exact Nat.one_pos)]
    have hflat := flat_eq (s := { s with buffers := s.buffers.setIfInBounds h.buffer m.cells }) hbuffer
    exact congrArg (Prod.mk MemoryAnswer.done) hflat

/-- What a handle does to the memory that it refers to is what is done to the flat store. -/
private theorem perform?_eq (hs : s.IsShared) (hh : s.handles[handle]? = some h) {request : HandleRequest}
    (hf : request.Fits) :
    (s.perform? handle request).map (Prod.map id flat) = some (s.flat.perform handle h.popPolicy request) := by
  have hbuffer : h.buffer = 0 := hs.handles h (Array.mem_of_getElem? hh)
  obtain ⟨cells, hc, hbytes⟩ := exists_cells hs hbuffer
  have hstoring := flat_storing hs hbuffer
  let m : Memory := { cells, popPolicy := h.popPolicy }
  unfold perform? FlatStore.perform
  rw [hh, Option.bind_eq_bind, Option.bind_some, hc, Option.bind_eq_bind, Option.bind_some, Option.map_some]
  refine congrArg some ?_
  cases request with
  | read a n =>
    dsimp only
    rw [Memory.read_eq _ hf, hbytes]
    rfl
  | write a data =>
    dsimp only
    rw [hstoring, Memory.write_eq _ hf, hbytes]
  | readByte a =>
    dsimp only
    rw [Memory.readByte_eq, hbytes]
    split <;> rfl
  | writeByte a byte =>
    dsimp only
    rw [hstoring, Memory.writeByte_eq, hbytes]
  | push byte pointer =>
    have hset := m.flat_set (stackCell pointer) byte
    rw [toNat_stackCell] at hset
    dsimp only
    rw [hstoring, hbytes, ← hset]
    rfl
  | pop pointer =>
    obtain ⟨hbyte, hcells⟩ := m.flat_pop pointer
    have hpop : flat (s.storing h (.ok (m.pop pointer).2)).2 =
        { s.flat with bytes := (m.pop pointer).2.cells.flat } :=
      congrArg Prod.snd (hstoring (.ok (m.pop pointer).2))
    show (MemoryAnswer.byte (m.pop pointer).1, flat (s.storing h (.ok (m.pop pointer).2)).2) =
      (MemoryAnswer.byte (s.flat.bytes (256 + pointer.toNat)), if h.popPolicy = .clear then
        { s.flat with bytes := s.flat.bytes.overwrite (256 + pointer.toNat) [0] } else s.flat)
    rw [hpop, hbyte, hcells, hbytes]
    show _ = (_, if m.popPolicy = .clear then _ else _)
    split
    · rfl
    · rw [← hbytes]
  | clear =>
    dsimp only
    rw [hstoring, ← Memory.flat_blank h.popPolicy, Memory.zeroed_eq]
    rfl
  | setPopPolicy popPolicy =>
    have hpolicies : (s.handles.setIfInBounds handle { h with popPolicy }).toList.map Handle.popPolicy =
        s.flat.policies.set handle popPolicy := by
      rw [Array.toList_setIfInBounds, List.map_set]
      rfl
    dsimp only
    rw [← hpolicies]
    rfl
  | dump start lines =>
    have hdump : m.dump start lines = dumpWith m.cells.flat.read start lines :=
      dumpWith_congr hf fun _ _ => m.read_eq
    dsimp only
    rw [hdump, hbytes]
    rfl
  | share =>
    have hpolicies : (s.handles.push h).toList.map Handle.popPolicy = s.flat.policies ++ [h.popPolicy] := by
      rw [Array.toList_push, List.map_append]
      rfl
    have hcount : s.flat.policies.length = s.handles.size := List.length_map _
    dsimp only
    rw [← hpolicies, hcount]
    rfl
  | view start length =>
    dsimp only
    rw [Window.of?_eq hf]
    by_cases hle : start.toNat + length.toNat ≤ memorySize
    · have hwindows : (s.views.push { start, length, buffer := h.buffer }).toList.map View.toWindow =
          s.flat.windows ++ [⟨start, length⟩] := by
        rw [Array.toList_push, List.map_append]
        rfl
      have hcount : s.flat.windows.length = s.views.size := List.length_map _
      rw [if_pos hle, if_pos hle, ← hwindows, hcount]
      rfl
    · rw [if_neg hle, if_neg hle]
      rfl
  | _ => rfl

/-- What is seen through a window is what is seen in the flat store. -/
private theorem look?_eq (hs : s.IsShared) (hi : s.flat.IsSound) (hv : s.views[index]? = some v)
    {request : WindowRequest} (hf : request.Fits) :
    s.look? index request = some (s.flat.look v.toWindow request) := by
  have hinside : v.toWindow.IsInside :=
    hi _ (List.mem_map_of_mem (Array.mem_toList_iff.2 (Array.mem_of_getElem? hv)))
  obtain ⟨cells, hc, hbytes⟩ := exists_cells hs (hs.views v (Array.mem_of_getElem? hv))
  let m : Memory := { cells, popPolicy := .preserve }
  unfold look? FlatStore.look
  rw [hv, Option.bind_eq_bind, Option.bind_some, hc, Option.bind_eq_bind, Option.bind_some]
  refine congrArg some ?_
  cases request with
  | read a n =>
    dsimp only
    rw [Window.read_eq hinside m hf, hbytes]
  | snapshot =>
    dsimp only
    rw [Window.snapshot_eq hinside m, hbytes]
    rfl
  | contains a =>
    dsimp only
    rw [Window.contains_eq hinside a]
    rfl
  | dump start lines =>
    have hdump : v.dump m start lines = dumpWith (m.cells.flat.readWithin v.toWindow) start lines :=
      dumpWith_congr hf fun _ _ => Window.read_eq hinside m
    dsimp only
    rw [hdump, hbytes]
  | _ => rfl

/-- What is done for one request is what is meant. -/
theorem flat_serve (hs : s.IsShared) (hi : s.flat.IsSound) {access : Access} (hf : access.Fits) :
    (s.serve access).1 = (s.flat.serve access).1 ∧ (s.serve access).2.flat = (s.flat.serve access).2 := by
  cases access with
  | handle index request =>
    have hpolicies : s.flat.policies[index]? = s.handles[index]?.map Handle.popPolicy := by
      unfold flat
      rw [List.getElem?_map, Array.getElem?_toList]
    unfold serve FlatStore.serve
    dsimp only
    rw [hpolicies]
    cases hh : s.handles[index]? with
    | none =>
      have hnone : s.perform? index request = none := by
        unfold perform?
        rw [hh]
        rfl
      rw [hnone]
      exact ⟨rfl, rfl⟩
    | some h =>
      obtain ⟨⟨answer, s'⟩, hperform, heq⟩ := Option.map_eq_some_iff.1 (perform?_eq hs hh hf)
      rw [hperform, Option.map_some]
      dsimp only
      rw [← heq]
      exact ⟨rfl, rfl⟩
  | window index request =>
    have hwindows : s.flat.windows[index]? = s.views[index]?.map View.toWindow := by
      unfold flat
      rw [List.getElem?_map, Array.getElem?_toList]
    unfold serve FlatStore.serve
    dsimp only
    rw [hwindows]
    refine ⟨?_, rfl⟩
    cases hv : s.views[index]? with
    | none =>
      unfold look?
      rw [hv]
      rfl
    | some v => exact look?_eq hs hi hv hf

/-! ### References -/

private theorem isShared_storing (hs : s.IsShared) (h : Handle) (result : Except MemoryError Memory) :
    (s.storing h result).2.IsShared := by
  cases result with
  | error e => exact hs
  | ok m => exact ⟨by rw [← hs.buffers]; exact Array.size_setIfInBounds, hs.handles, hs.views⟩

private theorem isShared_perform? (hs : s.IsShared) {request : HandleRequest}
    (hp : s.perform? handle request = some (answer, s')) : s'.IsShared := by
  unfold perform? at hp
  cases hh : s.handles[handle]? with
  | none =>
    rw [hh] at hp
    cases hp
  | some h =>
    have hbuffer : h.buffer = 0 := hs.handles h (Array.mem_of_getElem? hh)
    obtain ⟨cells, hc, -⟩ := exists_cells hs hbuffer
    rw [hh, Option.bind_eq_bind, Option.bind_some, hc, Option.bind_eq_bind, Option.bind_some] at hp
    have hp := congrArg Prod.snd (Option.some.inj hp)
    dsimp only at hp
    rw [← hp]
    cases request with
    | write a data => exact isShared_storing hs h _
    | writeByte a byte => exact isShared_storing hs h _
    | push byte pointer => exact isShared_storing hs h _
    | pop pointer => exact isShared_storing hs h _
    | clear => exact isShared_storing hs h _
    | setPopPolicy popPolicy =>
      refine ⟨hs.buffers, ?_, hs.views⟩
      intro h' hmem
      obtain hmem | rfl := Array.mem_or_eq_of_mem_setIfInBounds hmem
      · exact hs.handles h' hmem
      · exact hbuffer
    | share =>
      refine ⟨hs.buffers, ?_, hs.views⟩
      intro h' hmem
      obtain hmem | rfl := Array.mem_push.1 hmem
      · exact hs.handles h' hmem
      · exact hbuffer
    | view start length =>
      dsimp only
      cases Window.of? start length with
      | error e => exact hs
      | ok w =>
        refine ⟨hs.buffers, hs.handles, ?_⟩
        intro v hmem
        obtain hmem | rfl := Array.mem_push.1 hmem
        · exact hs.views v hmem
        · exact hbuffer
    | _ => exact hs

/-- A request leaves one buffer behind all handles and windows. -/
theorem isShared_serve (hs : s.IsShared) (access : Access) : (s.serve access).2.IsShared := by
  cases access with
  | window index request => exact hs
  | handle index request =>
    unfold serve
    dsimp only
    split
    · rename_i hp
      exact isShared_perform? hs hp
    · exact hs

end SharedMemory

/-! ### Sequences of requests -/

/-- Requests one after the other, with their answers. -/
def serveAll {σ : Type} (serve : σ → Access → Option MemoryAnswer × σ) (s : σ) :
    List Access → List (Option MemoryAnswer) × σ
  | [] => ([], s)
  | access :: accesses =>
    let (answer, s) := serve s access
    let (answers, s) := serveAll serve s accesses
    (answer :: answers, s)

theorem flat_serveAll {s : SharedMemory} (hs : s.IsShared) (hi : s.flat.IsSound) {accesses : List Access}
    (hf : ∀ access ∈ accesses, access.Fits) :
    (serveAll SharedMemory.serve s accesses).1 = (serveAll FlatStore.serve s.flat accesses).1 ∧
      (serveAll SharedMemory.serve s accesses).2.flat = (serveAll FlatStore.serve s.flat accesses).2 ∧
      (serveAll SharedMemory.serve s accesses).2.IsShared := by
  induction accesses generalizing s with
  | nil => exact ⟨rfl, rfl, hs⟩
  | cons access accesses ih =>
    obtain ⟨hfirst, hrest⟩ := List.forall_mem_cons.1 hf
    obtain ⟨hanswer, hflat⟩ := SharedMemory.flat_serve hs hi hfirst
    have hsound : (s.serve access).2.flat.IsSound := by
      rw [hflat]
      exact FlatStore.isSound_serve hi access
    obtain ⟨hanswers, hend, hshared⟩ := ih (SharedMemory.isShared_serve hs access) hsound hrest
    rw [hflat] at hanswers hend
    unfold serveAll
    dsimp only
    rw [hanswer, hanswers, hend]
    exact ⟨rfl, rfl, hshared⟩

/-- All handles and windows see one store.  Whatever is asked of a blank memory through its handles, those that are
shared from them and the windows, in any order, is answered as one array of bytes would answer it, initially zero and
changed in that order; and all of them refer to the buffer of the first handle at the end. -/
theorem serveAll_ofMemory (policy : PopPolicy) {accesses : List Access} (hf : ∀ access ∈ accesses, access.Fits) :
    (serveAll SharedMemory.serve (.ofMemory (.blank policy)) accesses).1 =
        (serveAll FlatStore.serve { bytes := fun _ => 0, policies := [policy], windows := [] } accesses).1 ∧
      (serveAll SharedMemory.serve (.ofMemory (.blank policy)) accesses).2.flat =
        (serveAll FlatStore.serve { bytes := fun _ => 0, policies := [policy], windows := [] } accesses).2 ∧
      (serveAll SharedMemory.serve (.ofMemory (.blank policy)) accesses).2.IsShared := by
  have hflat : (SharedMemory.ofMemory (.blank policy)).flat =
      { bytes := fun _ => 0, policies := [policy], windows := [] } := by
    rw [← Memory.flat_blank policy]
    rfl
  have hshared : (SharedMemory.ofMemory (.blank policy)).IsShared :=
    ⟨rfl, by simp [SharedMemory.ofMemory], by simp [SharedMemory.ofMemory]⟩
  rw [← hflat]
  apply flat_serveAll hshared _ hf
  rw [hflat]
  exact fun w hw => by cases hw

/-- Two handles with different policies and a window: what is pulled through the handle that clears is gone for all. -/
theorem serveAll_ofMemory_of_two_handles :
    let accesses : List Access := [.handle 0 (.writeByte 0x01ff 7), .handle 0 .share, .handle 1 (.setPopPolicy .clear),
      .handle 0 (.view 0x01fe 2), .handle 0 (.pop 0xff), .window 0 .snapshot, .handle 1 (.pop 0xff), .window 0 .snapshot,
      .handle 0 (.read 65536 0), .handle 0 (.write 65535 [1, 2])]
    (∀ access ∈ accesses, access.Fits) ∧
      (serveAll SharedMemory.serve (.ofMemory (.blank .preserve)) accesses).1 =
        [some .done, some (.number 1), some .done, some (.number 0), some (.byte 7), some (.bytes [0, 7]),
          some (.byte 7), some (.bytes [0, 0]), some (.bytes []), some (.refused (.writeOverflow 2 65535))] := by
  intro accesses
  have hf : ∀ access ∈ accesses, access.Fits := by
    simp [accesses, Access.Fits, HandleRequest.Fits, WindowRequest.Fits, UInt64.size]
  exact ⟨hf, (serveAll_ofMemory .preserve hf).1.trans rfl⟩

end Mos6502
