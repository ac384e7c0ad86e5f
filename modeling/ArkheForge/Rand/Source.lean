/-
  `RngSource` (`arkhe-rand/src/lib.rs`): a byte source over a BLAKE3 output stream,
  with a one-block prefetch cache.

  The output function is an arbitrary infinite stream for each key material, read
  from the front. The source is proved to refine an unbuffered reader: `unread` is
  what is left of the stream once the cache is put back in front of it, and a fill
  hands out its first bytes and leaves the rest (`fillBytes_spec`), wherever the
  cache stands.
-/
import ArkheForge.Lib.BigEndian
import Mathlib.Data.Stream.Init

namespace ArkheForge.Rand

open BigEndian Stream'

/-- `blake3::Hasher::new_derive_key(context)`, updated with the material and read as an
    extendable output. -/
class DeriveKeyXof where
  deriveKeyXof : String → Bytes → Stream' UInt8

/-- `blake3::OutputReader`: the part of the output that has not been read. -/
structure OutputReader where
  unread : Stream' UInt8

namespace OutputReader

/-- `OutputReader::fill` on a slice of `len` bytes. -/
def fill (xof : OutputReader) (len : ℕ) : Bytes × OutputReader :=
  (xof.unread.take len, ⟨xof.unread.drop len⟩)

end OutputReader

/-- An array of `n` bytes with `bytes` copied to its front. -/
def arrayOf (n : ℕ) (bytes : Bytes) : Vector UInt8 n := Vector.ofFn fun i => bytes.getD i 0

theorem arrayOf_toList {n : ℕ} {bytes : Bytes} (h : bytes.length = n) :
    (arrayOf n bytes).toList = bytes := by
  subst h
  apply List.ext_getElem
  · simp
  · intro i hi hi'
    simp [arrayOf]

abbrev Seed := Vector UInt8 32

def kdfContext : String := "arkhe-rand stream"

def xofBlockLen : ℕ := 64

/-- `RngSource`: `block[pos..]` is read from the output and not yet emitted. -/
structure RngSource where
  seed : Seed
  xof : OutputReader
  block : Vector UInt8 xofBlockLen
  pos : ℕ
  pos_le : pos ≤ xofBlockLen

namespace RngSource

/-! ## The source functions -/

/-- `RngSource::from_seed`. -/
def fromSeed [DeriveKeyXof] (seed : Seed) : RngSource where
  seed := seed
  xof := ⟨DeriveKeyXof.deriveKeyXof kdfContext seed.toList⟩
  block := Vector.replicate xofBlockLen 0
  pos := xofBlockLen
  pos_le := le_rfl

/-- The refill of the cache in `fill_bytes`. -/
def prefetch (rng : RngSource) : RngSource :=
  { rng with
    xof := (rng.xof.fill xofBlockLen).2
    block := arrayOf xofBlockLen (rng.xof.fill xofBlockLen).1
    pos := 0
    pos_le := Nat.zero_le _ }

/-- How many bytes one pass of the loop copies out of the cache, of `wanted` ones. -/
def copyLen (rng : RngSource) (wanted : ℕ) : ℕ := min wanted (xofBlockLen - rng.pos)

theorem pos_copyLen_le (rng : RngSource) (wanted : ℕ) :
    rng.pos + rng.copyLen wanted ≤ xofBlockLen := by
  have := rng.pos_le
  unfold copyLen
  omega

/-- `&block[pos..pos + n]`. -/
def cached (rng : RngSource) (n : ℕ) : Bytes := (rng.block.toList.drop rng.pos).take n

/-- The source once one pass of the loop has copied out of the cache. -/
def advance (rng : RngSource) (wanted : ℕ) : RngSource :=
  { rng with
    pos := rng.pos + rng.copyLen wanted
    pos_le := rng.pos_copyLen_le wanted }

/-- The cache as a pass of the loop reads it: refilled when it was empty. -/
def ready (rng : RngSource) : RngSource :=
  if rng.pos = xofBlockLen then rng.prefetch else rng

theorem ready_pos_lt (rng : RngSource) : rng.ready.pos < xofBlockLen := by
  have := rng.pos_le
  unfold ready
  split
  · exact Nat.zero_lt_succ _
  · omega

theorem copyLen_pos (rng : RngSource) {wanted : ℕ} (h : 0 < wanted) :
    0 < rng.ready.copyLen wanted := by
  have := rng.ready_pos_lt
  unfold copyLen
  omega

/-- The loop of `fill_bytes`, with `wanted` bytes of the buffer still to fill. An empty
    cache is passed over when a whole block or more is wanted. -/
def fillLoop (rng : RngSource) (wanted : ℕ) : Bytes × RngSource :=
  if h : 0 < wanted then
    if rng.pos = xofBlockLen ∧ xofBlockLen ≤ wanted then
      ((rng.xof.fill wanted).1, { rng with xof := (rng.xof.fill wanted).2 })
    else
      let n := rng.ready.copyLen wanted
      have : wanted - n < wanted := Nat.sub_lt h (rng.copyLen_pos h)
      let rest := fillLoop (rng.ready.advance wanted) (wanted - n)
      (rng.ready.cached n ++ rest.1, rest.2)
  else ([], rng)
termination_by wanted

/-- `RngSource::fill_bytes` on a buffer of `len` bytes. -/
def fillBytes (rng : RngSource) (len : ℕ) : Bytes × RngSource := rng.fillLoop len

/-- The stream of a seed. -/
def streamOf [DeriveKeyXof] (seed : Seed) : Stream' UInt8 :=
  DeriveKeyXof.deriveKeyXof kdfContext seed.toList

/-- The stream the source was made to read. -/
def stream [DeriveKeyXof] (rng : RngSource) : Stream' UInt8 := streamOf rng.seed

/-- `RngSource::split`: the child and what is left of the source. -/
def split [DeriveKeyXof] (rng : RngSource) : RngSource × RngSource :=
  let child := arrayOf 32 (rng.fillBytes 32).1
  (fromSeed child, (rng.fillBytes 32).2)

/-! ## The unbuffered reader -/

/-- What the source has not emitted: the rest of the cache, then the rest of the output. -/
def unread (rng : RngSource) : Stream' UInt8 := rng.block.toList.drop rng.pos ++ₛ rng.xof.unread

theorem unread_of_empty {rng : RngSource} (h : rng.pos = xofBlockLen) :
    rng.unread = rng.xof.unread := by
  unfold unread
  rw [List.drop_of_length_le (by simp [h]), Stream'.nil_append_stream]

@[simp] theorem fromSeed_unread [DeriveKeyXof] (seed : Seed) :
    (fromSeed seed).unread = streamOf seed :=
  unread_of_empty rfl

theorem prefetch_unread (rng : RngSource) (h : rng.pos = xofBlockLen) :
    rng.prefetch.unread = rng.unread := by
  rw [unread_of_empty h]
  show (arrayOf xofBlockLen (rng.xof.unread.take xofBlockLen)).toList.drop 0 ++ₛ
    rng.xof.unread.drop xofBlockLen = rng.xof.unread
  rw [arrayOf_toList (Stream'.length_take _ _), List.drop_zero, Stream'.append_take_drop]

/-- Refilling the cache moves bytes between its two halves only. -/
theorem ready_unread (rng : RngSource) : rng.ready.unread = rng.unread := by
  unfold ready
  split
  · exact rng.prefetch_unread ‹_›
  · rfl

theorem copyLen_le_cache (rng : RngSource) (wanted : ℕ) :
    rng.copyLen wanted ≤ (rng.block.toList.drop rng.pos).length := by
  have : (rng.block.toList.drop rng.pos).length = xofBlockLen - rng.pos := by simp
  unfold copyLen
  omega

theorem cached_eq_take (rng : RngSource) (wanted : ℕ) :
    rng.cached (rng.copyLen wanted) = rng.unread.take (rng.copyLen wanted) := by
  exact (Stream'.take_append_of_le_length _ _ _ (rng.copyLen_le_cache wanted)).symm

theorem advance_unread (rng : RngSource) (wanted : ℕ) :
    (rng.advance wanted).unread = rng.unread.drop (rng.copyLen wanted) := by
  show rng.block.toList.drop (rng.pos + rng.copyLen wanted) ++ₛ rng.xof.unread =
    (rng.block.toList.drop rng.pos ++ₛ rng.xof.unread).drop (rng.copyLen wanted)
  rw [Stream'.drop_append_of_le_length _ _ _ (rng.copyLen_le_cache wanted), List.drop_drop]

/-- A pass of the loop hands out a front part of what is unread; the passes together hand
    out exactly what was wanted. -/
theorem fillLoop_spec (rng : RngSource) (wanted : ℕ) :
    (rng.fillLoop wanted).1 = rng.unread.take wanted ∧
      (rng.fillLoop wanted).2.unread = rng.unread.drop wanted := by
  induction rng, wanted using fillLoop.induct with
  | case1 rng wanted h hdirect =>
      rw [fillLoop, dif_pos h, if_pos hdirect, unread_of_empty hdirect.1]
      exact ⟨rfl, unread_of_empty hdirect.1⟩
  | case2 rng wanted h hcache n hlt ih =>
      have hn : n ≤ wanted := Nat.min_le_left _ _
      have hsum : n + (wanted - n) = wanted := by omega
      have hunread : (rng.ready.advance wanted).unread = rng.unread.drop n := by
        rw [advance_unread, ready_unread]
      rw [fillLoop, dif_pos h, if_neg hcache]
      constructor
      · show rng.ready.cached n ++ ((rng.ready.advance wanted).fillLoop (wanted - n)).1 = _
        rw [ih.1, hunread, cached_eq_take, ready_unread, ← Stream'.take_add, hsum]
      · show ((rng.ready.advance wanted).fillLoop (wanted - n)).2.unread = _
        rw [ih.2, hunread, Stream'.drop_drop, hsum]
  | case3 rng wanted h =>
      have hzero : wanted = 0 := by omega
      subst hzero
      rw [fillLoop, dif_neg h]
      exact ⟨rfl, rfl⟩

/-- A fill hands out the next bytes of the stream and leaves the rest. -/
theorem fillBytes_spec (rng : RngSource) (len : ℕ) :
    (rng.fillBytes len).1 = rng.unread.take len ∧
      (rng.fillBytes len).2.unread = rng.unread.drop len := rng.fillLoop_spec len

theorem fillLoop_seed (rng : RngSource) (wanted : ℕ) : (rng.fillLoop wanted).2.seed = rng.seed := by
  induction rng, wanted using fillLoop.induct with
  | case1 rng wanted h hdirect => rw [fillLoop, dif_pos h, if_pos hdirect]
  | case2 rng wanted h hcache n hlt ih =>
      rw [fillLoop, dif_pos h, if_neg hcache]
      have hready : rng.ready.seed = rng.seed := by
        unfold ready
        split <;> rfl
      exact ih.trans hready
  | case3 rng wanted h => rw [fillLoop, dif_neg h]

/-- The seed of a split's child, when `unread` is what is left of the parent. -/
def childSeed (unread : Stream' UInt8) : Seed := arrayOf 32 (unread.take 32)

@[simp] theorem childSeed_toList (unread : Stream' UInt8) :
    (childSeed unread).toList = unread.take 32 := arrayOf_toList (Stream'.length_take _ _)

/-- A split is a fill of 32 bytes with the child made from them. -/
theorem split_spec [DeriveKeyXof] (rng : RngSource) :
    rng.split = (fromSeed (childSeed rng.unread), (rng.fillBytes 32).2) := by
  unfold split childSeed
  rw [(rng.fillBytes_spec 32).1]

end RngSource

/-! ## Families of sources -/

/-- A source with the bytes it has handed out, to callers and to the seeds of its children. -/
structure Member where
  rng : RngSource
  handed : Bytes

/-- A call on the member `target` of a family. -/
inductive Call
  | fillBytes (target len : ℕ)
  | split (target : ℕ)
  deriving DecidableEq, Repr

namespace Call

def target : Call → ℕ
  | .fillBytes target _ => target
  | .split target => target

/-- How many bytes the call takes from its target. -/
def taken : Call → ℕ
  | .fillBytes _ len => len
  | .split _ => 32

/-- How many bytes `calls` take from the member `j`. -/
def takenFrom (j : ℕ) (calls : List Call) : ℕ :=
  ((calls.filter fun call => call.target = j).map taken).sum

theorem takenFrom_cons (j : ℕ) (call : Call) (calls : List Call) :
    takenFrom j (call :: calls) = (if call.target = j then call.taken else 0) + takenFrom j calls := by
  unfold takenFrom
  by_cases h : call.target = j <;> simp [h]

end Call

namespace Member

def born (rng : RngSource) : Member := ⟨rng, []⟩

/-- The member after a fill, with what it handed out noted. -/
def fill (m : Member) (len : ℕ) : Member :=
  ⟨(m.rng.fillBytes len).2, m.handed ++ (m.rng.fillBytes len).1⟩

/-- The member after a split; the child's seed is what it handed out. -/
def afterSplit [DeriveKeyXof] (m : Member) : Member :=
  ⟨m.rng.split.2, m.handed ++ m.rng.split.1.seed.toList⟩

def child [DeriveKeyXof] (m : Member) : Member := born m.rng.split.1

theorem afterSplit_eq [DeriveKeyXof] (m : Member) : m.afterSplit = m.fill 32 := by
  unfold afterSplit fill
  rw [m.rng.split_spec, (m.rng.fillBytes_spec 32).1]
  simp [RngSource.fromSeed]

/-- The member is `count` bytes into the stream of its seed, having handed out exactly
    those. -/
structure ReadsStream [DeriveKeyXof] (m : Member) (count : ℕ) : Prop where
  handed_eq : m.handed = m.rng.stream.take count
  unread_eq : m.rng.unread = m.rng.stream.drop count

theorem readsStream_born [DeriveKeyXof] (seed : Seed) :
    (born (RngSource.fromSeed seed)).ReadsStream 0 :=
  ⟨rfl, RngSource.fromSeed_unread seed⟩

theorem ReadsStream.fill [DeriveKeyXof] {m : Member} {count : ℕ} (h : m.ReadsStream count)
    (len : ℕ) : (m.fill len).ReadsStream (count + len) := by
  have hstream : (m.fill len).rng.stream = m.rng.stream :=
    congrArg RngSource.streamOf (m.rng.fillLoop_seed len)
  obtain ⟨hbytes, hrest⟩ := m.rng.fillBytes_spec len
  constructor
  · show m.handed ++ (m.rng.fillBytes len).1 = _
    rw [hstream, hbytes, h.handed_eq, h.unread_eq, Stream'.take_add]
  · show (m.rng.fillBytes len).2.unread = _
    rw [hstream, hrest, h.unread_eq, Stream'.drop_drop]

theorem ReadsStream.length_handed [DeriveKeyXof] {m : Member} {count : ℕ}
    (h : m.ReadsStream count) : m.handed.length = count := by
  rw [h.handed_eq, Stream'.length_take]

/-- What a call of a family leaves of its member `j`. -/
def step (m : Member) (j : ℕ) (c : Call) : Member :=
  if c.target = j then m.fill c.taken else m

theorem ReadsStream.step [DeriveKeyXof] {m : Member} {count : ℕ} (h : m.ReadsStream count)
    (j : ℕ) (c : Call) :
    (m.step j c).ReadsStream (count + if c.target = j then c.taken else 0) := by
  unfold Member.step
  split
  · exact h.fill c.taken
  · exact h

theorem ReadsStream.steps [DeriveKeyXof] {m : Member} {count : ℕ} (h : m.ReadsStream count)
    (j : ℕ) (calls : List Call) :
    (calls.foldl (·.step j) m).ReadsStream (count + Call.takenFrom j calls) := by
  induction calls generalizing m count with
  | nil => exact h
  | cons c calls ih =>
      rw [Call.takenFrom_cons, ← Nat.add_assoc]
      exact ih (h.step j c)

theorem step_seed (m : Member) (j : ℕ) (c : Call) : (m.step j c).rng.seed = m.rng.seed := by
  unfold step
  split
  · exact m.rng.fillLoop_seed c.taken
  · rfl

theorem steps_seed (m : Member) (j : ℕ) (calls : List Call) :
    (calls.foldl (·.step j) m).rng.seed = m.rng.seed := by
  induction calls generalizing m with
  | nil => rfl
  | cons c calls ih => exact (ih (m.step j c)).trans (m.step_seed j c)

/-- Calls on other members are as good as not made. -/
theorem steps_filter (m : Member) (j : ℕ) (calls : List Call) :
    (calls.filter fun c => c.target = j).foldl (·.step j) m = calls.foldl (·.step j) m := by
  induction calls generalizing m with
  | nil => rfl
  | cons c calls ih =>
      by_cases hc : c.target = j
      · simp [hc, ih]
      · have hsame : m.step j c = m := if_neg hc
        simp [hc, hsame, ih]

end Member

section Family

variable [DeriveKeyXof] {family : List Member} {j : ℕ} {m : Member}

/-- One call. A split adds its child at the end; a call on no member does nothing. -/
def call (family : List Member) : Call → List Member
  | .fillBytes i len => family.modify i (·.fill len)
  | .split i => family.modify i (·.afterSplit) ++ (family[i]?.map (·.child)).toList

def run (family : List Member) (calls : List Call) : List Member := calls.foldl call family

theorem getElem?_call (hm : family[j]? = some m) (c : Call) :
    (call family c)[j]? = some (m.step j c) := by
  have hj : j < family.length := (List.getElem?_eq_some_iff.mp hm).1
  cases c with
  | fillBytes i len =>
      show (family.modify i (·.fill len))[j]? = some (if i = j then m.fill len else m)
      rw [List.getElem?_modify, hm]
      split <;> rfl
  | split i =>
      show (family.modify i (·.afterSplit) ++ (family[i]?.map (·.child)).toList)[j]? =
        some (if i = j then m.fill 32 else m)
      rw [List.getElem?_append_left (by simpa using hj), List.getElem?_modify, hm,
        ← m.afterSplit_eq]
      split <;> rfl

/-- A member of the family after a call was one before it, or is a newborn child. -/
theorem getElem?_of_call {c : Call} (hm : (call family c)[j]? = some m) :
    (∃ before, family[j]? = some before ∧ m = before.step j c) ∨
      ∃ parent : Member, m = parent.child := by
  rcases hold : family[j]? with _ | before
  · right
    have hj : family.length ≤ j := List.getElem?_eq_none_iff.mp hold
    cases c with
    | fillBytes i len =>
        have hlt := (List.getElem?_eq_some_iff.mp hm).1
        have hlength : (call family (.fillBytes i len)).length = family.length :=
          List.length_modify _ _ _
        omega
    | split i =>
        have hchild : m ∈ (family[i]?.map (·.child)).toList := by
          have hpast : (family.modify i (·.afterSplit)).length ≤ j := by simpa using hj
          have hright : (family.modify i (·.afterSplit) ++
              (family[i]?.map (·.child)).toList)[j]? = _ := List.getElem?_append_right hpast
          have hm := hright.symm.trans hm
          exact List.mem_of_getElem? hm
        obtain ⟨parent, -, hparent⟩ := Option.map_eq_some_iff.mp (Option.mem_toList.mp hchild)
        exact ⟨parent, hparent.symm⟩
  · left
    rw [getElem?_call hold] at hm
    exact ⟨before, rfl, (Option.some.inj hm).symm⟩

/-- A call on another source leaves a source as it was. -/
theorem getElem?_call_others (hm : family[j]? = some m) {c : Call} (hc : c.target ≠ j) :
    (call family c)[j]? = some m := by
  rw [getElem?_call hm, Member.step, if_neg hc]

theorem getElem?_run (hm : family[j]? = some m) (calls : List Call) :
    (run family calls)[j]? = some (calls.foldl (·.step j) m) := by
  induction calls generalizing family m with
  | nil => exact hm
  | cons c calls ih => exact ih (getElem?_call hm c)

/-- The calls on a source alone decide what becomes of it. -/
theorem getElem?_run_filter (hm : family[j]? = some m) (calls : List Call) :
    (run family calls)[j]? = (run family (calls.filter fun c => c.target = j))[j]? := by
  rw [getElem?_run hm, getElem?_run hm, Member.steps_filter]

/-- Every source of the family reads the stream of its own seed. -/
def ReadStreams (family : List Member) : Prop :=
  ∀ m ∈ family, m.ReadsStream m.handed.length

theorem ReadStreams.call (h : ReadStreams family) (c : Call) : ReadStreams (call family c) := by
  intro m hm
  obtain ⟨j, hj⟩ := List.mem_iff_getElem?.mp hm
  rcases getElem?_of_call hj with ⟨before, hbefore, rfl⟩ | ⟨parent, rfl⟩
  · have hstep := (h before (List.mem_of_getElem? hbefore)).step j c
    rw [hstep.length_handed]
    exact hstep
  · exact Member.readsStream_born _

theorem ReadStreams.run (h : ReadStreams family) (calls : List Call) :
    ReadStreams (run family calls) := by
  induction calls generalizing family with
  | nil => exact h
  | cons c calls ih => exact ih (h.call c)

/-- A family of one source, made from `seed`. -/
def founded (seed : Seed) : List Member := [Member.born (RngSource.fromSeed seed)]

theorem readStreams_founded (seed : Seed) : ReadStreams (founded seed) := by
  intro m hm
  rw [List.mem_singleton.mp hm]
  exact Member.readsStream_born seed

/-- What a source of the family does next, told from its seed and from how many bytes it has
    handed out: its next fill, its split, and that only calls on it matter to it. -/
structure FaithfulView (family : List Member) (j : ℕ) (m : Member) : Prop where
  handed : m.handed = m.rng.stream.take m.handed.length
  fill : ∀ len, (m.rng.fillBytes len).1 = (m.rng.stream.drop m.handed.length).take len
  split_child : m.rng.split.1 =
    RngSource.fromSeed (RngSource.childSeed (m.rng.stream.drop m.handed.length))
  split : Rand.call family (.split j) =
    family.modify j (·.fill 32) ++ [Member.born m.rng.split.1]
  others : ∀ c : Call, c.target ≠ j → (Rand.call family c)[j]? = some m
  own_calls : ∀ calls : List Call,
    (run family calls)[j]? = (run family (calls.filter fun c => c.target = j))[j]?

theorem ReadStreams.faithfulView (h : ReadStreams family) (hm : family[j]? = some m) :
    FaithfulView family j m where
  handed := (h m (List.mem_of_getElem? hm)).handed_eq
  fill len := by
    rw [(m.rng.fillBytes_spec len).1, (h m (List.mem_of_getElem? hm)).unread_eq]
  split_child := by
    rw [m.rng.split_spec, (h m (List.mem_of_getElem? hm)).unread_eq]
  split := by
    have hafter : (fun member : Member => member.afterSplit) = fun member => member.fill 32 := by
      funext member
      exact member.afterSplit_eq
    show family.modify j (·.afterSplit) ++ (family[j]?.map (·.child)).toList = _
    rw [hafter, hm]
    rfl
  others c hc := getElem?_call_others hm hc
  own_calls calls := getElem?_run_filter hm calls

/-- However fills and splits of a source and of its descendants interleave, each source's
    bytes are a prefix of the stream of its seed. The first source has handed out as many
    as the calls took from it. -/
theorem family_reads_streams (seed : Seed) (calls : List Call) :
    (∃ root, (run (founded seed) calls)[0]? = some root ∧
      root.handed = (RngSource.streamOf seed).take (Call.takenFrom 0 calls)) ∧
    ∀ j m, (run (founded seed) calls)[j]? = some m →
      FaithfulView (run (founded seed) calls) j m := by
  refine ⟨?_, fun j m hm => ((readStreams_founded seed).run calls).faithfulView hm⟩
  have hroot : (founded seed)[0]? = some (Member.born (RngSource.fromSeed seed)) := rfl
  refine ⟨_, getElem?_run hroot calls, ?_⟩
  have hreads := (Member.readsStream_born seed).steps 0 calls
  rw [hreads.handed_eq, Nat.zero_add, RngSource.stream, Member.steps_seed]
  rfl

end Family

end ArkheForge.Rand
