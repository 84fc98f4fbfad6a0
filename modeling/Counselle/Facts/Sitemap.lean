import Counselle.Binary64

/-! The sitemap columns of `collegedata_schools` and the statements that write them.
Rows are only ever added, so that a row is named by its position. -/
namespace Counselle.Facts

structure ListedSchool where
  slug : String
  lastSeenInSitemapAt : Option Nat
  retiredAt : Option Nat
  deriving DecidableEq

structure RetirementLimits where
  maxFraction : ℚ
  minFloor : Nat

def touchSeenSlugs (now : Nat) (slugs : List String) (schools : List ListedSchool) :
    List ListedSchool :=
  schools.map fun row =>
    if row.slug ∈ slugs then { row with lastSeenInSitemapAt := some now } else row

/-- `insert_unmatched_slugs`: a slug whose `lower(slug)` some row has is left out. -/
def insertUnmatchedSlugs (lower : String → String) (now : Nat) (slugs : List String)
    (schools : List ListedSchool) : List ListedSchool :=
  slugs.foldl (fun rows slug =>
    if rows.any fun row => lower row.slug = lower slug then rows
    else rows ++ [⟨slug, some now, none⟩]) schools

/-- What `sync_crosswalk` inserts: it leaves these columns of the other rows alone. `none`
is the violation of the unique index on `lower(slug)`. -/
def syncCrosswalk (lower : String → String) (slugs : List String) (schools : List ListedSchool) :
    Option (List ListedSchool) :=
  slugs.foldlM (fun rows slug =>
    if rows.any fun row => row.slug = slug then some rows
    else if rows.any fun row => lower row.slug = lower slug then none
    else some (rows ++ [⟨slug, none, none⟩])) schools

def ListedSchool.isLive (row : ListedSchool) : Bool := row.retiredAt.isNone

def ListedSchool.isAbsentSince (previous : Nat) (row : ListedSchool) : Bool :=
  row.isLive && row.lastSeenInSitemapAt.any (· < previous)

/-- `retire_absent_slugs`; `none` is the refusal to retire too large a part of the rows.
The quotient of the two counts is a double. -/
def retireAbsentSlugs (limits : RetirementLimits) (now previous : Nat) (schools : List ListedSchool) :
    Option (List ListedSchool) :=
  let live := schools.countP ListedSchool.isLive
  let candidate := schools.countP (ListedSchool.isAbsentSince previous)
  if candidate = 0 then some schools
  else if limits.minFloor < live ∧ limits.maxFraction < Binary64.rounded (candidate / live : ℚ) then none
  else some (schools.map fun row =>
    if row.isAbsentSince previous then { row with retiredAt := some now } else row)

end Counselle.Facts
