import CommandGrammar.Console.Session
import CommandGrammar.Piped.Class

/-!
# `Piped.Draft` — the lines of an input that is not typed

An input that is not typed goes through the same editor as one that is, line by line. It can hold backspaces, and each of
them takes back the cluster before it, if there is one. A cluster is a run of characters that is shown, and taken back,
as one: a letter with its marks, a syllable block, a flag, a family of pictographs. The rules are those of the Unicode
standard for extended grapheme clusters; each of them looks at the next character and at the cluster so far.

## Contents

* `fuses`, `joinsPictographs`, `halvesFlag` — the rules that look further back than one character;
* `joins`, `clusters` — whether a character continues a cluster, and the clusters of a text;
* `Draft`, `Draft.add`, `Draft.takeBack` — a line being put together from clusters;
* `Draft.finish` — the line that is left when all backspaces have been carried out;
* `Event.ofLine`, `Event.ofText` — the events that the lines of an input make.

Nothing is lost: the clusters make up the text (`flatten_clusters`), and a line without backspaces is left as it is
(`finish_of_notMem`). The size of a cluster is kept in one byte, so of a longer cluster only the remainder is taken back;
where that would cut a character in two, taking back is a fault.
-/

namespace CommandGrammar

namespace Text.Cluster

/-! ## Rules that look further back

A cluster so far is given last character first. -/

/-- Whether the cluster ends in a consonant and a linker, perhaps with marks among them. -/
def fuses (cluster : List Char) : Bool :=
  (cluster.takeWhile isBetween).any isLinker
    && (cluster.dropWhile isBetween).head?.any (classOf · = .consonant)

/-- Whether a joiner ends the cluster and stands behind a pictograph, perhaps with marks on it. -/
def joinsPictographs : List Char → Bool
  | [] => false
  | c :: cluster =>
    classOf c = .joiner
      && (cluster.dropWhile (classOf · = .extend)).head?.any (classOf · = .pictograph)

/-- Whether the cluster ends in half a flag whose other half is missing. -/
def halvesFlag (cluster : List Char) : Bool :=
  (cluster.takeWhile (classOf · = .regional)).length % 2 = 1

/-! ## Clusters -/

/-- Whether a character of the second class always follows one of the first in the same cluster. -/
def Class.attracts : Class → Class → Bool
  | carriageReturn, next => next = lineFeed
  | lineFeed, _ | control, _ => false
  | _, carriageReturn | _, lineFeed | _, control => false
  | _, extend | _, joiner | _, trailing => true
  | leading, _ => true
  | initial, next => next ∈ [initial, medial, openBlock, closedBlock]
  | medial, next | openBlock, next => next ∈ [medial, final]
  | final, next | closedBlock, next => next = final
  | _, _ => false

/-- Whether a character continues a cluster. -/
def joins (cluster : List Char) (next : Char) : Bool :=
  match cluster.head? with
  | none => false
  | some last =>
    (classOf last).attracts (classOf next)
      || match classOf next with
        | .consonant => fuses cluster
        | .pictograph => joinsPictographs cluster
        | .regional => halvesFlag cluster
        | _ => false

/-- The clusters of the rest of a text, the first of which has begun with `cluster`. -/
def clustersFrom (cluster : List Char) : List Char → List (List Char)
  | [] => [cluster.reverse]
  | c :: cs =>
    if joins cluster c then clustersFrom (c :: cluster) cs
    else cluster.reverse :: clustersFrom [c] cs

/-- The clusters of a text. -/
def clusters : List Char → List (List Char)
  | [] => []
  | c :: cs => clustersFrom [c] cs

theorem flatten_clustersFrom (cluster cs : List Char) :
    (clustersFrom cluster cs).flatten = cluster.reverse ++ cs := by
  induction cs generalizing cluster with
  | nil => simp [clustersFrom]
  | cons c cs ih =>
    rw [clustersFrom]
    split <;> simp [ih]

/-- The clusters make up the text. -/
@[simp] theorem flatten_clusters (cs : List Char) : (clusters cs).flatten = cs := by
  cases cs with
  | nil => rfl
  | cons c cs => simp [clusters, flatten_clustersFrom]

end Text.Cluster

/-! ## Lines with backspaces in them -/

/-- A line being put together. -/
structure Draft where
  /-- The text so far, last character first. -/
  reversed : List Char := []
  /-- How many bytes each backspace takes back, the next one first. -/
  sizes : List Nat := []
deriving DecidableEq, Repr

namespace Draft

/-- The text so far. -/
def text (d : Draft) : List Char := d.reversed.reverse

/-- The character that takes back a cluster. -/
def backspace : Char := '\x08'

/-- The number of sizes that fit into one byte. -/
def sizeLimit : Nat := 256

/-- Adds a cluster. -/
def add (d : Draft) (cluster : List Char) : Draft :=
  ⟨cluster.reverse ++ d.reversed, Text.size cluster % sizeLimit :: d.sizes⟩

@[simp] theorem text_add (d : Draft) (cluster : List Char) :
    (d.add cluster).text = d.text ++ cluster := by
  simp [text, add]

/-- Takes back the last cluster, if there is one. -/
def takeBack (d : Draft) : Except Fault Draft :=
  match d.sizes with
  | [] => .ok d
  | size :: sizes =>
    match Text.cut size d.reversed with
    | some (_, kept) => .ok ⟨kept, sizes⟩
    | none => .error .badSlice

/-- Carries out a cluster of the input. -/
def step (d : Draft) (cluster : List Char) : Except Fault Draft :=
  if cluster = [backspace] then d.takeBack else .ok (d.add cluster)

/-- The line that is left when all backspaces have been carried out. -/
def finish (line : List Char) : Except Fault (List Char) :=
  Draft.text <$> (Text.Cluster.clusters line).foldlM step {}

theorem foldlM_step_of_notMem {clusters : List (List Char)} (h : [backspace] ∉ clusters) (d : Draft) :
    Draft.text <$> clusters.foldlM step d = .ok (d.text ++ clusters.flatten) := by
  induction clusters generalizing d with
  | nil =>
    rw [List.foldlM_nil, List.flatten_nil, List.append_nil]
    rfl
  | cons cluster clusters ih =>
    rw [List.mem_cons, not_or] at h
    rw [List.foldlM_cons, step, if_neg (Ne.symm h.1)]
    exact (ih h.2 (d.add cluster)).trans (by simp)

/-- A line without backspaces is left as it is. -/
theorem finish_of_notMem {line : List Char} (h : backspace ∉ line) : finish line = .ok line := by
  have hclusters : [backspace] ∉ Text.Cluster.clusters line := fun hmem => by
    have hmem' : backspace ∈ (Text.Cluster.clusters line).flatten :=
      List.mem_flatten.2 ⟨[backspace], hmem, List.mem_singleton.2 rfl⟩
    rw [Text.Cluster.flatten_clusters] at hmem'
    exact h hmem'
  simpa [finish, text] using foldlM_step_of_notMem hclusters {}

end Draft

/-! ## Events -/

/-- A line, last character first, without a carriage return at its end. -/
def Event.chomp : List Char → List Char
  | '\r' :: cs => cs
  | cs => cs

/-- The event of a line: the line with its backspaces carried out. -/
def Event.ofLine (line : List Char) : Event :=
  match Draft.finish line with
  | .ok text => .line (String.ofList text)
  | .error fault => .failure (.fault fault)

/-- The events of a whole input: `line` holds the characters of the current line, last one first. A
    last line without an end counts as it stands. -/
def Event.ofChars (line : List Char) : List Char → List Event
  | [] => if line.isEmpty then [] else [ofLine line.reverse]
  | c :: cs =>
    if c = '\n' then ofLine (chomp line).reverse :: ofChars [] cs else ofChars (c :: line) cs

/-- The events of a whole input, one per line. -/
def Event.ofText (text : String) : List Event := Event.ofChars [] text.toList

end CommandGrammar
