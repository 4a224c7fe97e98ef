import Mathlib.Data.List.Perm.Basic
import TrafficMonitor.Sketch.HyperLogLog

namespace TrafficMonitor.Sketch.HyperLogLog

variable {κ : Type}

theorem getElem?_add (s : HyperLogLog κ) (key : κ) (j : Nat) :
    (s.add key).registers[j]? =
      if register s.precision (s.hash key) = j then
        s.registers[j]?.map (max · (rank s.precision (s.hash key)))
      else s.registers[j]? := Array.getElem?_modify

theorem add_right_comm (s : HyperLogLog κ) (a b : κ) : (s.add a).add b = (s.add b).add a := by
  have hregisters : ((s.add a).add b).registers = ((s.add b).add a).registers := by
    apply Array.ext_getElem?
    intro j
    have hprecision (key : κ) : (s.add key).precision = s.precision := rfl
    have hhash (key : κ) : (s.add key).hash = s.hash := rfl
    simp only [getElem?_add, hprecision, hhash]
    split <;> split
    · rw [Option.map_map, Option.map_map]
      exact congrFun (congrArg Option.map (funext fun r => Nat.max_right_comm r _ _)) _
    · rfl
    · rfl
    · rfl
  exact congrArg (HyperLogLog.mk s.precision s.hash) hregisters

theorem foldl_add_perm (s : HyperLogLog κ) {keys keys' : List κ} (h : keys'.Perm keys) :
    keys'.foldl add s = keys.foldl add s :=
  h.foldl_eq' (fun a _ b _ s => add_right_comm s a b) s

end TrafficMonitor.Sketch.HyperLogLog
