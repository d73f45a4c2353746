import Encodr.Execution.FfmpegBuilder
import Encodr.Lib.Result

/-!
# The ideal encoder

What `ffmpeg` should make of a source under a command: the mapped streams in mapping order, copied with
their codecs and tags, with the flags as the command sets them, in the target container. A `-disposition`
option replaces all flags of its stream. How the video is encoded is an argument (`encode`).

* `FfmpegCommand.output`: the ideal output.
* `output_media`: its media file, from blocks of streams of one type.
* `dispositionOf_built`: the flags that a built command sets.
-/

namespace Encodr

open Python Lib

/-! ## The output -/

/-- The stream with the flags that a `-disposition` option sets; `0` clears all flags. -/
def ProbeStream.withDisposition (s : ProbeStream) : Option String → ProbeStream
  | none => s
  | some value => { s with flags := if value = "0" then [] else [value] }

namespace FfmpegCommand

section Output

variable (command : FfmpegCommand) (encode : ProbeStream → ProbeStream)

/-- The output of a stream, the `n`-th of its type. -/
def outputStream (n : Nat) (s : ProbeStream) : ProbeStream :=
  (if s.type = .video ∧ command.copiesVideo = false then encode s else s).withDisposition
    (command.dispositionOf s.type n)

/-- The outputs of the mapped streams; `seen` counts the outputs of each type before them. -/
def outputStreams : (StreamType → Nat) → List ProbeStream → List ProbeStream
  | _, [] => []
  | seen, s :: rest => command.outputStream encode (seen s.type) s ::
      outputStreams (Function.update seen s.type (seen s.type + 1)) rest

/-- The source streams that the command maps, in mapping order. -/
def mapped (source : ProbeFile) : List ProbeStream :=
  command.maps.filterMap fun i => if 0 ≤ i then source.streams[i.toNat]? else none

/-- The ideal output; `format` is the rest of its container. -/
def output (target : OutputContainer) (format : ContainerFormat) (source : ProbeFile) : ProbeFile where
  container := { format with extension := some target.value }
  streams := command.outputStreams encode (fun _ => 0) (command.mapped source)

/-- The encoder does its work under the command: the video has the target codec, and its dimensions
are unchanged where the command does not scale. -/
structure Encodes (target : Option String) (s s' : ProbeStream) : Prop where
  type : s'.type = .video
  codecName : s'.codecName = target
  width : command.scales = false → s'.width = s.width
  height : command.scales = false → s'.height = s.height

end Output

section Blocks

variable {command : FfmpegCommand} {encode : ProbeStream → ProbeStream} {t : StreamType}
  {block rest : List ProbeStream}

/-- The outputs of a block of streams of one type. -/
theorem outputStreams_append (seen : StreamType → Nat) (h : ∀ s ∈ block, s.type = t) :
    command.outputStreams encode seen (block ++ rest) =
      (block.mapIdx fun i s => command.outputStream encode (seen t + i) s) ++
        command.outputStreams encode (Function.update seen t (seen t + block.length)) rest := by
  induction block generalizing seen with
  | nil => simp
  | cons s block ih =>
    obtain rfl : s.type = t := h s List.mem_cons_self
    rw [List.cons_append, outputStreams, ih _ fun s hs => h s (List.mem_cons_of_mem _ hs),
      List.mapIdx_cons, List.cons_append, Function.update_self, Function.update_idem,
      List.length_cons]
    have hlater : (fun i s' => command.outputStream encode (seen s.type + 1 + i) s') =
        fun i s' => command.outputStream encode (seen s.type + (i + 1)) s' := by
      funext i s'
      congr 1
      omega
    have hcount : seen s.type + 1 + block.length = seen s.type + (block.length + 1) := by omega
    rw [hlater, hcount]
    rfl

end Blocks

end FfmpegCommand

/-! ## Blocks of streams -/

/-- The streams of one type in a list, normalised, where `k` streams come before. -/
def streamsFrom {α : Type} (k : Nat) (streams : List ProbeStream) (t : StreamType)
    (normalise : ProbeStream → Nat → α) : List α :=
  ((streams.zipIdx k).filter fun p => p.1.type = t).map fun p => normalise p.1 p.2

section Blocks

variable {α : Type} {k : Nat} {block xs ys : List ProbeStream} {t t' : StreamType}
  {normalise : ProbeStream → Nat → α}

theorem streamsFrom_append : streamsFrom k (xs ++ ys) t normalise =
    streamsFrom k xs t normalise ++ streamsFrom (k + xs.length) ys t normalise := by
  simp only [streamsFrom, List.zipIdx_append, List.filter_append, List.map_append]

/-- The streams of a block of one type are all there or not at all. -/
theorem streamsFrom_block (h : ∀ s ∈ block, s.type = t') :
    streamsFrom k block t normalise =
      if t' = t then block.mapIdx fun i s => normalise s (k + i) else [] := by
  rw [streamsFrom]
  split
  · next heq =>
    have hall : ((block.zipIdx k).filter fun p => p.1.type = t) = block.zipIdx k :=
      List.filter_eq_self.mpr fun p hp => by
        simpa [heq] using h p.1 (List.fst_mem_of_mem_zipIdx hp)
    rw [hall, List.mapIdx_eq_zipIdx_map, List.zipIdx_eq_map_add, List.map_map]
    rfl
  · next hne =>
    have hnone : ((block.zipIdx k).filter fun p => p.1.type = t) = [] :=
      List.filter_eq_nil_iff.mpr fun p hp => by
        simpa [h p.1 (List.fst_mem_of_mem_zipIdx hp)] using hne
    rw [hnone, List.map_nil]

end Blocks

end Encodr
