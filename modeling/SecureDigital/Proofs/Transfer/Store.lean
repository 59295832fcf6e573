import SecureDigital.Memory
import SecureDigital.Proofs.Transfer.Calls

/-!
# A store of blocks

What a host expects of a card: a memory of its own and, for each number, a block of 512 bytes, and calls
that move bytes between the two. A block that is read is the one that was last written there
(`Store.load_of_written`), or the one that was there from the start (`Store.load_of_unwritten`).
-/

namespace SecureDigital

structure Store where
  memory : Memory
  block : UInt32 → Vector UInt8 512

namespace Store

def step (t : Store) : HostCall → Store
  | .writeMemory address bytes => { t with memory := t.memory.store address bytes }
  | .writeBlock block src => { t with block := fun b => if b = block then t.memory.load src 512 else t.block b }
  | .readBlock block dest => { t with memory := t.memory.store dest (t.block block).toArray }

def run (t : Store) (calls : List HostCall) : Store := calls.foldl step t

variable {t : Store} {calls : List HostCall} {b dest src : UInt32}

theorem run_append (t : Store) (calls more : List HostCall) : t.run (calls ++ more) = (t.run calls).run more :=
  List.foldl_append

theorem block_step_of_ne {call : HostCall} (h : ∀ src, call ≠ .writeBlock b src) :
    (t.step call).block b = t.block b := by
  cases call with
  | writeBlock block src =>
    have hne : b ≠ block := fun hb => h src (hb ▸ rfl)
    exact if_neg hne
  | writeMemory | readBlock => rfl

theorem block_run_of_unwritten (h : ∀ src, .writeBlock b src ∉ calls) : (t.run calls).block b = t.block b := by
  induction calls generalizing t with
  | nil => rfl
  | cons call calls ih =>
    have hcall : ∀ src, call ≠ .writeBlock b src := fun src hcall => h src (hcall ▸ List.mem_cons_self)
    have hcalls : ∀ src, .writeBlock b src ∉ calls := fun src hmem => h src (List.mem_cons_of_mem _ hmem)
    exact (ih hcalls).trans (block_step_of_ne hcall)

theorem load_readBlock (t : Store) (b dest : UInt32) : (t.step (.readBlock b dest)).memory.load dest 512 = t.block b :=
  Memory.load_store_vector _ _ _ (by decide)

theorem load_of_unwritten (h : ∀ src, .writeBlock b src ∉ calls) :
    (t.run (calls ++ [.readBlock b dest])).memory.load dest 512 = t.block b := by
  rw [run_append]
  exact (load_readBlock _ b dest).trans (block_run_of_unwritten h)

theorem load_of_written (earlier : List HostCall) (h : ∀ src', .writeBlock b src' ∉ calls) :
    (t.run (earlier ++ .writeBlock b src :: calls ++ [.readBlock b dest])).memory.load dest 512 =
      (t.run earlier).memory.load src 512 := by
  rw [List.append_assoc, run_append]
  refine (load_of_unwritten h).trans ?_
  exact if_pos rfl

end Store

end SecureDigital
