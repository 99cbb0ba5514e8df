-- The warps that are resident on an SM, by warp id. No id stands twice, and the
-- order of the table never shows.
import Simt.Fault

namespace Simt

/-- What an SM knows of one warp. -/
structure Resident where
  cta : UInt32
  atBarrier : Bool
  exited : Bool
  /-- Atomics that were issued and have not completed. -/
  pending : UInt32
  deriving DecidableEq

namespace Resident

/-- A warp that has just begun. -/
def fresh (cta : UInt32) : Resident := ⟨cta, false, false, 0⟩

def live (r : Resident) : Bool := !r.exited

end Resident

structure WarpTable where
  entries : List (UInt32 × Resident)
  distinct : (entries.map Prod.fst).Nodup
  deriving DecidableEq

namespace WarpTable

def empty : WarpTable := ⟨[], by simp⟩

/-- What the table knows of a warp. -/
def find? (t : WarpTable) (id : UInt32) : Option Resident :=
  t.entries.lookup id

def contains (t : WarpTable) (id : UInt32) : Bool := (t.find? id).isSome

/-- The warps of the table, without their ids. -/
def residents (t : WarpTable) : List Resident := t.entries.map Prod.snd

/-- Changes every warp of the table. -/
def map (t : WarpTable) (change : UInt32 → Resident → Resident) : WarpTable where
  entries := t.entries.map fun e => (e.1, change e.1 e.2)
  distinct := by
    simpa [List.map_map, Function.comp_def] using t.distinct

/-- Changes the warp of one id. -/
def update (t : WarpTable) (id : UInt32) (change : Resident → Resident) : WarpTable :=
  t.map fun i r => if i = id then change r else r

/-- Keeps only some of the warps. -/
def filter (t : WarpTable) (keep : Resident → Bool) : WarpTable where
  entries := t.entries.filter fun e => keep e.2
  distinct := t.distinct.sublist (List.filter_sublist.map Prod.fst)

/-- Gives an id to a warp, in place of what had the id before. -/
def insert (t : WarpTable) (id : UInt32) (r : Resident) : WarpTable where
  entries := t.entries.filter (fun e => e.1 != id) ++ [(id, r)]
  distinct := by
    rw [List.map_append, List.nodup_append]
    refine ⟨t.distinct.sublist (List.filter_sublist.map Prod.fst), by simp, ?_⟩
    intro a ha b hb
    simp only [List.map_cons, List.map_nil, List.mem_singleton] at hb
    subst hb
    rintro rfl
    simp at ha

end WarpTable

end Simt
