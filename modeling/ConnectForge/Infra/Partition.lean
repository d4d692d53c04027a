import ConnectForge.Core.Error
import ConnectForge.Infra.Segment

namespace ConnectForge.Infra

/-! One partition of the file store: an ordered list of segments, rolled as
they fill up, pruned from the head by retention, and rebuilt from the directory
on startup. -/

def ioErr (reason : IoError) : PortError := .transient reason

structure PartitionState where
  segments : List Segment
  startOffset : Nat
  nextOffset : Nat
deriving DecidableEq

namespace PartitionState

def fresh : PartitionState := { segments := [], startOffset := 0, nextOffset := 0 }

def totalRecords (part : PartitionState) : Nat := part.nextOffset - part.startOffset

/-- Whether the next record has to open a new segment. -/
def mustRoll (part : PartitionState) (segmentMax : Nat) : Bool :=
  match part.segments.getLast? with
  | none => true
  | some segment => segmentMax ≤ segment.len

def roll (part : PartitionState) (segmentMax : Nat) (disk : Disk) :
    Except PortError Unit × PartitionState × Disk :=
  if part.mustRoll segmentMax then
    match Segment.create part.nextOffset disk with
    | (.error reason, disk) => (.error (ioErr reason), part, disk)
    | (.ok segment, disk) => (.ok (), { part with segments := part.segments ++ [segment] }, disk)
  else (.ok (), part, disk)

def appendLast (part : PartitionState) (record : Record) (disk : Disk) :
    Except PortError Unit × PartitionState × Disk :=
  match part.segments.getLast? with
  -- `expect("a segment exists after roll check")`
  | none => (.error (.permanent "a segment exists after roll check"), part, disk)
  | some segment =>
      match segment.append record disk with
      | (.error reason, segment, disk) =>
          (.error (ioErr reason),
            { part with segments := part.segments.dropLast ++ [segment] }, disk)
      | (.ok (), segment, disk) =>
          (.ok (), { part with
            segments := part.segments.dropLast ++ [segment]
            nextOffset := part.nextOffset + 1 }, disk)

def appendRecords (segmentMax : Nat) :
    List Record → PartitionState → Disk → Except PortError Unit × PartitionState × Disk
  | [], part, disk => (.ok (), part, disk)
  | record :: rest, part, disk =>
      match part.roll segmentMax disk with
      | (.error reason, part, disk) => (.error reason, part, disk)
      | (.ok (), part, disk) =>
          match part.appendLast record disk with
          | (.error reason, part, disk) => (.error reason, part, disk)
          | (.ok (), part, disk) => appendRecords segmentMax rest part disk

/-- The pruning loop.  The head segment leaves the list before its file is
deleted, and the start offset moves only after that. -/
def prune (maxRecords next : Nat) :
    List Segment → Nat → Bool → Disk → Except PortError Bool × PartitionState × Disk
  | head :: second :: rest, start, pruned, disk =>
      if maxRecords < next - start then
        match head.remove disk with
        | (.error reason, disk) =>
            (.error (ioErr reason),
              { segments := second :: rest, startOffset := start, nextOffset := next }, disk)
        | (.ok (), disk) => prune maxRecords next (second :: rest) second.base true disk
      else
        (.ok pruned,
          { segments := head :: second :: rest, startOffset := start, nextOffset := next }, disk)
  | segments, start, pruned, disk =>
      (.ok pruned, { segments, startOffset := start, nextOffset := next }, disk)

/-- Prune whole head segments until the retention bound is satisfied.  Returns
the new start offset if anything was pruned. -/
def applyRetention (part : PartitionState) (maxRecords : Nat) (disk : Disk) :
    Except PortError (Option Nat) × PartitionState × Disk :=
  if maxRecords = 0 then (.ok none, part, disk)
  else
    match prune maxRecords part.nextOffset part.segments part.startOffset false disk with
    | (.error reason, part, disk) => (.error reason, part, disk)
    | (.ok pruned, part, disk) =>
        (.ok (if pruned then some part.startOffset else none), part, disk)

def fetchSegments (effectiveFrom : Nat) (dir : Directory) :
    List Segment → Nat → Except PortError (List Record)
  | [], _ => .ok []
  | segment :: rest, remaining =>
      if remaining = 0 then .ok []
      else if segment.base + segment.len ≤ effectiveFrom then
        fetchSegments effectiveFrom dir rest remaining
      else
        match segment.readFrom effectiveFrom remaining dir with
        | .error reason => .error (ioErr reason)
        | .ok found =>
            match fetchSegments effectiveFrom dir rest (remaining - found.length) with
            | .error reason => .error reason
            | .ok later => .ok (found ++ later)

def fetch (part : PartitionState) (start max : Nat) (dir : Directory) :
    Except PortError FetchResult :=
  let effectiveFrom := Nat.max start part.startOffset
  match fetchSegments effectiveFrom dir part.segments max with
  | .error reason => .error reason
  | .ok records =>
      .ok {
        records
        nextOffset := nextAfter records effectiveFrom
        highWatermark := part.nextOffset }

/-- What `Inner::append` does to the partition once it has found it: number the
batch, write it, apply retention.  Absent when an offset would overflow. -/
def append (part : PartitionState) (retention : RetentionPolicy) (batch : List ProduceRecord)
    (timestamp : DateTime) (disk : Disk) :
    Option (Except PortError AppendOutcome × PartitionState × Disk) :=
  match materialize part.nextOffset timestamp batch with
  | none => none
  | some materialized =>
      match appendRecords retention.segmentMaxRecords materialized part disk with
      | (.error reason, part, disk) => some (.error reason, part, disk)
      | (.ok (), part, disk) =>
          match part.applyRetention retention.maxRecords disk with
          | (.error reason, part, disk) => some (.error reason, part, disk)
          | (.ok truncatedTo, part, disk) =>
              some (.ok { records := materialized, truncatedTo }, part, disk)

/-- Dropping a partition drops the writers of its segments, one after the other. -/
def drop (part : PartitionState) (disk : Disk) : Disk :=
  part.segments.foldl (fun disk segment => segment.writer.drop disk) disk

end PartitionState

/-! Recovery. -/

/-- `Path::file_stem` and `Path::extension` of a file name. -/
def rsplitAtDot (name : List Char) : List Char × Option (List Char) :=
  if name = ['.', '.'] then (name, none)
  else
    match name.reverse.dropWhile (· ≠ '.') with
    | [] => (name, none)
    | [_] => (name, none)
    | _ :: stem => (stem.reverse, some (name.reverse.takeWhile (· ≠ '.')).reverse)

def stripPlus : List Char → List Char
  | '+' :: rest => rest
  | text => text

/-- `str::parse::<u64>`: decimal digits, at least one, after an optional plus
sign. -/
def parseU64 (text : List Char) : Option Nat :=
  let digits := stripPlus text
  if digits.isEmpty || !digits.all Char.isDigit then none
  else if Nat.ofDigitChars 10 digits 0 < u64Modulus then some (Nat.ofDigitChars 10 digits 0)
  else none

/-- The base offset a directory entry stands for, if it is a segment's log. -/
def segmentBase (name : String) : Option Nat :=
  match rsplitAtDot name.toList with
  | (stem, extension) => if extension = some ['l', 'o', 'g'] then parseU64 stem else none

/-- Open the segments with the given bases, one after the other. -/
def openSegments : List Nat → Directory → Except IoError (List Segment × Directory)
  | [], dir => .ok ([], dir)
  | base :: rest, dir =>
      match Segment.open base dir with
      | .error reason => .error reason
      | .ok (segment, dir) =>
          match openSegments rest dir with
          | .error reason => .error reason
          | .ok (segments, dir) => .ok (segment :: segments, dir)

/-- Rebuild a partition's segment list from its directory.  `listing` is what
`read_dir` returned: the directory's names in an order of its own. -/
def recoverPartition (listing : List String) (dir : Directory) :
    Except PortError (PartitionState × Directory) :=
  match openSegments (listing.filterMap segmentBase).mergeSort dir with
  | .error reason => .error (ioErr reason)
  | .ok (segments, dir) =>
      .ok ({
        segments
        startOffset := match segments.head? with
          | none => 0
          | some segment => segment.base
        nextOffset := match segments.getLast? with
          | none => 0
          | some segment => segment.base + segment.len }, dir)

end ConnectForge.Infra
