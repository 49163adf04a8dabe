import CameraStream.Format.Family

/-!
# Ranking encodings

Where the consumer has no wish, encodings are ranked by the place of their family in a list.
`preferred?` finds the best one in a single pass and `sort` orders them all; the one `preferred?`
finds is the head of `sort`, if that is ranked. Encodings of no listed family have no rank: they
are never picked on their own, and come last in a sorted list.
-/

namespace CameraStream

/-- Families in order of preference, the best one first. -/
structure Ranking where
  order : List Family
deriving DecidableEq, Repr

namespace Ranking

/-- Raw eight-bit frames first, then colour, compressed and grey frames, then deeper raw frames. -/
def standard : Ranking :=
  ⟨[.bayer8, .rgb, .yuv, .compressed, .mono16, .mono8,
    .bayerPwl, .bayer10, .bayer12, .bayer16, .polarizedBayer, .polarizedMono]⟩

/-- The standard order with eight-bit grey before sixteen-bit grey. -/
def preferMono8 : Ranking :=
  ⟨[.bayer8, .rgb, .yuv, .compressed, .mono8, .mono16,
    .bayerPwl, .bayer10, .bayer12, .bayer16, .polarizedBayer, .polarizedMono]⟩

/-- The place of an encoding's family, where lower is better. -/
def rank? (r : Ranking) (e : Encoding) : Option Nat :=
  e.family.bind fun f => r.order.idxOf? f

/-- The best encoding of a first list of candidates and then `e`: the earlier one unless the rank
of `e` is lower. -/
def better (r : Ranking) (best : Option (Nat × Encoding)) (e : Encoding) :
    Option (Nat × Encoding) :=
  match r.rank? e, best with
  | none, _ => best
  | some n, none => some (n, e)
  | some n, some (m, d) => if n < m then some (n, e) else some (m, d)

/-- The ranked encoding of lowest rank, the first of several. -/
def preferred? (r : Ranking) (es : List Encoding) : Option Encoding :=
  ((es.filter (·.isValid)).foldl r.better none).map (·.2)

/-- Whether a rank is at most another, no rank being above all ranks. -/
def rankLE : Option Nat → Option Nat → Bool
  | _, none => true
  | none, some _ => false
  | some n, some m => n ≤ m

/-- The valid encodings by rank, those of one rank in the given order. -/
def sort (r : Ranking) (es : List Encoding) : List Encoding :=
  (es.filter (·.isValid)).mergeSort fun a b => rankLE (r.rank? a) (r.rank? b)

end Ranking
end CameraStream
