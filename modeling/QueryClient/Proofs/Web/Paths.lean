import Mathlib.Data.List.TakeWhile
import QueryClient.Web.Url

/-!
# Paths of addresses

The segments of a path are read as they are written, as long as their characters stand for themselves and
none of them is a segment of dots. Then they are all read as segments if nothing before them is taken for
the beginning of the path.

* `isPlain`, `IsSegment`: characters and segments that stand for themselves.
* `Url.parsePath_join`: **such segments are read as they are.**
* `Url.IsHost`: what a host is written with.
* `Url.segments_of_parse`: **the segments of an address.**
-/

namespace QueryClient.Web

variable {cs : List Char} {c : Char} {segments : List (List Char)}

/-- A character that stands for itself in a path, and is no slash. -/
def isPlain (c : Char) : Bool := c.toNat < 0x80 && !escapedInPath c && !Url.isSlash c

/-- A segment that stands for itself: it is not one of dots. -/
structure IsSegment (cs : List Char) : Prop where
  plain : ∀ c ∈ cs, isPlain c
  dot : Url.isDot cs = false
  doubleDot : Url.isDoubleDot cs = false

theorem isSegment_iff :
    IsSegment cs ↔ (cs.all isPlain && !Url.isDot cs && !Url.isDoubleDot cs) = true := by
  simp only [Bool.and_eq_true, Bool.not_eq_true', List.all_eq_true]
  exact ⟨fun h => ⟨⟨h.plain, h.dot⟩, h.doubleDot⟩, fun h => ⟨h.1.1, h.1.2, h.2⟩⟩

instance : Decidable (IsSegment cs) := decidable_of_iff _ isSegment_iff.symm

/-- A segment with a colon is not one of dots. -/
theorem IsSegment.of_colon (h : ∀ c ∈ cs, isPlain c) (hcolon : ':' ∈ cs) : IsSegment cs := by
  have hne : ∀ s : String, ':' ∉ s.toList → (s.toList == cs) = false := fun s hs =>
    beq_eq_false_iff_ne.2 fun heq => hs (heq ▸ hcolon)
  refine ⟨h, ?_, ?_⟩
  · exact List.any_eq_false.2 fun s hs => by simp [hne s (by revert s; decide)]
  · exact List.any_eq_false.2 fun s hs => by simp [hne s (by revert s; decide)]

namespace Url

/-- Characters that stand for themselves are not escaped. -/
theorem percentEncode_of_plain (h : ∀ c ∈ cs, isPlain c) : percentEncode escapedInPath cs = cs := by
  induction cs with
  | nil => rfl
  | cons c cs ih =>
    obtain ⟨hc, hcs⟩ := List.forall_mem_cons.1 h
    have hkept : percentEncode escapedInPath (c :: cs) = c :: percentEncode escapedInPath cs := by
      unfold percentEncode
      rw [List.flatMap_cons, if_pos (Bool.and_eq_true_iff.1 hc).1]
      rfl
    rw [hkept, ih hcs]

theorem notSlash_of_plain (h : isPlain c) : isSlash c = false := by
  simpa using (Bool.and_eq_true_iff.1 h).2

/-- Slashes part segments. -/
theorem splitSlashes_append (h : ∀ c ∈ cs, isSlash c = false) (rest : List Char) :
    splitSlashes (cs ++ '/' :: rest) = cs :: splitSlashes rest := by
  induction cs with
  | nil => rfl
  | cons c cs ih =>
    obtain ⟨hc, hcs⟩ := List.forall_mem_cons.1 h
    rw [List.cons_append, splitSlashes, hc, ih hcs]
    rfl

theorem splitSlashes_of_notSlash (h : ∀ c ∈ cs, isSlash c = false) : splitSlashes cs = [cs] := by
  induction cs with
  | nil => rfl
  | cons c cs ih =>
    obtain ⟨hc, hcs⟩ := List.forall_mem_cons.1 h
    rw [splitSlashes, hc, ih hcs]
    rfl

theorem splitSlashes_join (h : ∀ s ∈ cs :: segments, ∀ c ∈ s, isSlash c = false) :
    splitSlashes (cs ++ segments.flatMap fun s => '/' :: s) = cs :: segments := by
  induction segments generalizing cs with
  | nil => simpa using splitSlashes_of_notSlash (h cs List.mem_cons_self)
  | cons s segments ih =>
    obtain ⟨hcs, hrest⟩ := List.forall_mem_cons.1 h
    rw [List.flatMap_cons, List.cons_append, splitSlashes_append hcs, ih hrest]

/-- Segments that are not of dots are kept. -/
theorem resolve_of_notDots {path : List (List Char)}
    (h : ∀ s ∈ segments, isDot s = false ∧ isDoubleDot s = false) :
    resolve path segments = path.reverse ++ segments := by
  induction segments generalizing path with
  | nil => simp [resolve]
  | cons s segments ih =>
    obtain ⟨⟨hdot, hdouble⟩, hrest⟩ := List.forall_mem_cons.1 h
    cases segments with
    | nil => simp [resolve, hdot, hdouble]
    | cons s' segments =>
      rw [resolve]
      · simp [hdot, hdouble, ih hrest]
      · simp

/-- **Segments that stand for themselves are read as they are.** -/
theorem parsePath_join (h : ∀ s ∈ cs :: segments, IsSegment s) :
    parsePath ((cs :: segments).flatMap fun s => '/' :: s) = cs :: segments := by
  have hsplit : splitSlashes (cs ++ segments.flatMap fun s => '/' :: s) = cs :: segments :=
    splitSlashes_join fun s hs c hc => notSlash_of_plain ((h s hs).plain c hc)
  have hencode : (cs :: segments).map (percentEncode escapedInPath) = cs :: segments :=
    (List.map_congr_left fun s hs => percentEncode_of_plain (h s hs).plain).trans (List.map_id _)
  unfold parsePath
  rw [List.flatMap_cons, List.cons_append]
  simp only [show isSlash '/' = true from rfl, if_true]
  rw [hsplit, hencode, resolve_of_notDots fun s hs => ⟨(h s hs).dot, (h s hs).doubleDot⟩]
  rfl

/-! ## Whole addresses -/

/-- The path of an address is read from what follows the host. -/
theorem segments_eq {secure : Bool} {text : List Char} {u : Url} (h : parse secure text = .ok u) :
    let cs := (text.filter fun c => !isLayout c).dropWhile isSlash
    u.segments = parsePath (splitTail (cs.drop (cs.takeWhile fun c => !endsAuthority c).length)).1 := by
  unfold parse at h
  simp only [bind, Except.bind, pure, Except.pure, throw, throwThe, MonadExceptOf.throw] at h
  -- a host that is there and can be read
  split at h
  · cases h
  split at h
  · cases h
  -- and a port, if there is one
  split at h
  · cases h
    rfl
  · split at h
    · cases h
    · cases h
      rfl

/-- A plain character or a slash is read as it stands, and ends no path. -/
theorem slash_or_plain (h : c = '/' ∨ isPlain c) : isLayout c = false ∧ c ≠ '?' ∧ c ≠ '#' := by
  rcases h with rfl | h
  · decide
  have hkept : escapedInPath c = false := by
    simpa using (Bool.and_eq_true_iff.1 (Bool.and_eq_true_iff.1 h).1).2
  refine ⟨?_, ?_, ?_⟩
  · unfold isLayout
    simp only [Bool.or_eq_false_iff, beq_eq_false_iff_ne]
    refine ⟨⟨?_, ?_⟩, ?_⟩ <;> rintro rfl <;> exact absurd hkept (by decide)
  · rintro rfl
    exact absurd hkept (by decide)
  · rintro rfl
    exact absurd hkept (by decide)

/-- A path of such characters is all of the tail. -/
theorem splitTail_of_path {path : List Char} (h : ∀ c ∈ path, c = '/' ∨ isPlain c) :
    splitTail path = (path, none, none) := by
  have hwhole : (path.takeWhile fun c => decide (c ≠ '?' ∧ c ≠ '#')) = path :=
    List.takeWhile_eq_self_iff.2 fun c hc => decide_eq_true (slash_or_plain (h c hc)).2
  unfold splitTail
  simp only [hwhole, List.drop_length]

/-- What the host is written with: nothing that ends it, and nothing that counts for nothing. -/
structure IsHost (host : List Char) : Prop where
  nonempty : host ≠ []
  ends : ∀ c ∈ host, endsAuthority c = false
  layout : ∀ c ∈ host, isLayout c = false

/-- **The segments of an address** are those after its host. -/
theorem segments_of_parse {secure : Bool} {host : List Char} {u : Url} (hhost : IsHost host)
    (hsegments : ∀ s ∈ cs :: segments, IsSegment s)
    (h : parse secure ("//".toList ++ host ++ (cs :: segments).flatMap fun s => '/' :: s) = .ok u) :
    u.segments = cs :: segments := by
  set path := (cs :: segments).flatMap fun s => '/' :: s with hpath
  have hchars : ∀ c ∈ path, c = '/' ∨ isPlain c := by
    intro c hc
    obtain ⟨s, hs, hc⟩ := List.mem_flatMap.1 hc
    exact (List.mem_cons.1 hc).imp_right fun hc => (hsegments s hs).plain c hc
  -- nothing is left out but the first slashes
  have hkept : (("//".toList ++ host ++ path).filter fun c => !isLayout c) = "//".toList ++ host ++ path := by
    refine List.filter_eq_self.2 fun c hc => ?_
    have hlayout : isLayout c = false := by
      rcases List.mem_append.1 hc with hc | hc
      · rcases List.mem_append.1 hc with hc | hc
        · exact (slash_or_plain (.inl (by simpa using hc))).1
        · exact hhost.layout c hc
      · exact (slash_or_plain (hchars c hc)).1
    rw [hlayout]
    rfl
  obtain ⟨c, host', rfl⟩ := List.exists_cons_of_ne_nil hhost.nonempty
  have hfirst : isSlash c = false := by
    have hends := hhost.ends c List.mem_cons_self
    unfold endsAuthority at hends
    simp only [Bool.or_eq_false_iff] at hends
    exact hends.1.1
  have hdrop : ("//".toList ++ (c :: host') ++ path).dropWhile isSlash = (c :: host') ++ path := by
    simp [List.dropWhile, hfirst, show isSlash '/' = true from rfl]
  have hauthority : ((c :: host') ++ path).takeWhile (fun c => !endsAuthority c) = c :: host' := by
    rw [List.takeWhile_append_of_pos fun c hc => by simp [hhost.ends c hc], hpath]
    simp [show endsAuthority '/' = true from rfl]
  have hparse := segments_eq h
  simp only [hkept, hdrop, hauthority, List.drop_left, splitTail_of_path hchars] at hparse
  rw [hparse, hpath]
  exact parsePath_join hsegments

end Url

end QueryClient.Web
