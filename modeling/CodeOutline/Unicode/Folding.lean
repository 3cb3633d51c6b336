import CodeOutline.Unicode.Ranges

/-! # Case folding

The sets of characters that differ in case only, by simple case folding.
-/

namespace CodeOutline.Unicode

/-- The sets in packed form. For each set: how far its first character is beyond the first of the
set before, how many characters follow, and how far each is beyond the one before. -/
def packedOrbits : String :=
  String.join [
    "2BB1ABB1ABB1ABB1ABB1ABB1ABB1ABB1ABB1ABB1ABC1A85-BB1ABB1ABB1ABB1ABB1ABB1ABB1ABC1A8MBB1ABB1ABB",
    "1ABB1ABB1ABB1ABB1A2xCnH1ALB1ABB1ABB1ABB1ABB1ABC1A82GBB1ABB1ABB1ABB1ABB1ABB1ABB1ABB1ABB1ABB1A",
    "BB1ABB1ABB1ABB1ABB1ABB1ABB1ACB1ABB1ABB1ABB1ABB1ABB1ABB1ABB7d-1AB3ZBBBCBBCBBCBBCBBCBBCBBCBBCB",
    "BCBBCBBCBBCBBCBBCBBCBBCBBCBBCBBCBBCBBCBBCBBCBBEBBCBBCBBDBBCBBCBBCBBCBBCBBCBBCBBDBBCBBCBBCBBC",
    "BBCBBCBBCBBCBBCBBCBBCBBCBBCBBCBBCBBCBBCBBCBBCBBCBBCBBCBBDBBCBBCBBDB6DBB6SBBBCBBCB6OBBBCB6NBB",
    "6NBBBDB2PBB6KBB6LBBBCB6NBB6PBB3BBB6TBB6RBBBCB5DBB19iBBB6TBB6VBB4CBB6WBBBCBBCBBCB6wBBBCB6wDBB",
    "CB6wBBBCB6ZBB6ZBBBCBBCB6xBBBEBBDB1YFCBBDCBBDCBBDBBCBBCBBCBBCBBCBBCBBCBBDBBCBBCBBCBBCBBCBBCBB",
    "CBBCBBDCBBDBBEBBCBBCBBCBBCBBCBBCBBCBBCBBCBBCBBCBBCBBCBBCBBCBBCBBCBBCBBCBBEBBCBBCBBCBBCBBCBBC",
    "BBCBBCBBIBahLBBBDBahIBBah-BBah-BBBDB2FBB2HBBBCBBCBBCBBCBBCBag-BBagyBBag+KB19aPFB19aLDB19bHBB",
    "199IBB19aEEB19aEBBafXBB19aBFBafzMBafHFB19aDFB199KWB198VBB198S5HD2U1A70F1LBBCBBEBBFB4CBB4CBB4",
    "CCB3UHB1GCB1FBB1FBB1FCB2ACB1-BB1-BB72DBB1ABC1A+BB1ABB1ABC1A2ABB1ABB1ABD1AZ1DCC1A1WBB1ACB1ABB",
    "1ABB1ABC1AWBC1A1QCC-BBB1ABB1ABC1APBB1ABB1ABC1A7azBB1ABB1AFB71T-BIJBBCBBCBBCBBCBBCBBCBBCBBCBB",
    "CBBCBBCBBEBHFBBDBBGB2QBB2QBB2QBB2QBB2QBB2QBB2QBB2QBB2QBB2QBB2QBB2QBB2QBB2QBB2QBB2QBB1ABB1ABC",
    "1A62OBB1ABC1A62NBB1ABB1ABB1ABB1ABB1ABB1ABB1ABB1ABB1ABC1A62EBB1ABB1ABC1A62CBD1A62CBBB1ABB1ABB",
    "1ABB1ABB1ABB1ABB1ABC1A61yBB1ABB1ABB1ABB1ABB1A1RBBCCB61ECBBCBBCBBCBBCBBCBBCBBCBBCBBCBBCBBCBBC",
    "BBCBBCBBKBBCBBCBBCBBCBBCBBCBBCBBCBBCBBCBBCBBCBBCBBCBBCBBCBBCBBCBBCBBCBBCBBCBBCBBCBBCBBCBBCBP",
    "BBBCBBCBBCBBCBBCBBCBBDBBCBBCBBCBBCBBCBBCBBCBBCBBCBBCBBCBBCBBCBBCBBCBBCBBCBBCBBCBBCBBCBBCBBCB",
    "BCBBCBBCBBCBBCBBCBBCBBCBBCBBCBBCBBCBBCBBCBBCBBCBBCBBCBBCBBCBBCBBCBBCBBCBBDB1QBB1QBB1QBB1QBB1",
    "QBB1QBB1QBB1QBB1QBB1QBB1QBB1QBB1QBB1QBB1QBB1QBB1QBB1QBB1QBB1QBB1QBB1QBB1QBB1QBB1QBB1QBB1QBB1",
    "QBB1QBB1QBB1QBB1QBB1QBB1QBB1QBB1QBB1QBB1Q2qKB73ABB73ABB73ABB73ABB73ABB73ABB73ABB73ABB73ABB73",
    "ABB73ABB73ABB73ABB73ABB73ABB73ABB73ABB73ABB73ABB73ABB73ABB73ABB73ABB73ABB73ABB73ABB73ABB73AB",
    "B73ABB73ABB73ABB73ABB73ABB73ABB73ABB73ABB73ABB73ACB73AGB73ADB2uABB2uABB2uABB2uABB2uABB2uABB2",
    "uABB2uABB2uABB2uABB2uABB2uABB2uABB2uABB2uABB2uABB2uABB2uABB2uABB2uABB2uABB2uABB2uABB2uABB2uA",
    "BB2uABB2uABB2uABB2uABB2uABB2uABB2uABB2uABB2uABB2uABB2uABB2uABB2uABB2uABB2uABB2uABB2uABB2uADB",
    "2uABB2uABB2uAlBB15uQBB15uQBB15uQBB15uQBB15uQBB15uQBB15uQBB15uQBB15uQBB15uQBB15uQBB15uQBB15uQ",
    "BB15uQBB15uQBB15uQBB15uQBB15uQBB15uQBB15uQBB15uQBB15uQBB15uQBB15uQBB15uQBB15uQBB15uQBB15uQBB",
    "15uQBB15uQBB15uQBB15uQBB15uQBB15uQBB15uQBB15uQBB15uQBB15uQBB15uQBB15uQBB15uQBB15uQBB15uQBB15",
    "uQBB15uQBB15uQBB15uQBB15uQBB15uQBB15uQBB15uQBB15uQBB15uQBB15uQBB15uQBB15uQBB15uQBB15uQBB15uQ",
    "BB15uQBB15uQBB15uQBB15uQBB15uQBB15uQBB15uQBB15uQBB15uQBB15uQBB15uQBB15uQBB15uQBB15uQBB15uQBB",
    "15uQBB15uQBB15uQBB15uQBB15uQBB15uQBBIBBIBBIBBIBBIBBI24TC12eCBBBB7QB12gEEB3nGRB12hY3SBBCBBCBB",
    "CBBCBBCBBCBBCBBCBBCBBCBBCBBCBBCBBCBBCBBCBBCBBCBBCBBCBBCBBCBBCBBCBBCBBCBBCBBCBBCBBCBBCBBCBBCB",
    "BCBBCBBCBBCBBCBBCBBCBBCBBCBBCBBCBBCBBCBBCBBCCB1wCBBCBBCBBCBBCBBCBBCBBCBBCBBCBBCBBCBBCBBCBBCB",
    "BCBBCBBCBBCBBCBBCBBCBBCBBCBBCBBCBBMBBCBBCBBCBBCBBCBBCBBCBBCBBCBBCBBCBBCBBCBBCBBCBBCBBCBBCBBC",
    "BBCBBCBBCBBCBBCBBCBBCBBCBBCBBCBBCBBCBBCBBCBBCBBCBBCBBCBBCBBCBBCBBCBBCBBCBBCBBCBBCBBCBBCBIBBI",
    "BBIBBIBBIBBIBBIBBIJBIBBIBBIBBIBBIBBILBIBBIBBIBBIBBIBBIBBIBBIJBIBBIBBIBBIBBIBBIBBIBBIJBIBBIBB",
    "IBBIBBIBBIMBICBICBICBIJBIBBIBBIBBIBBIBBIBBIBBIJB2KBB2KBB2WBB2WBB2WBB2WBB3EBB3EBB4ABB4ABB3QBB",
    "3QBB3+BB3+DBIBBIBBIBBIBBIBBIBBIBBIJBIBBIBBIBBIBBIBBIBBIBBIJBIBBIBBIBBIBBIBBIBBIBBIJBIBBICBJQ",
    "BJNBIBBIPBIBBIEBHOBJ9-By1OBQBBQBBQBBQBBQBBQBBQBBQBBQBBQBBQBBQBBQBBQBBQBBQUBBpTBwBBwBBwBBwBBw",
    "BBwBBwBBwBBwBBwBBwBBwBBwBBwBBwBBwBBwBBwBBwBBwBBwBBwBBwBBwBBwBBw1pRB1QBB1QBB1QBB1QBB1QBB1QBB1",
    "QBB1QBB1QBB1QBB1QBB1QBB1QBB1QBB1QBB1QBB1QBB1QBB1QBB1QBB1QBB1QBB1QBB1QBB1QBB1QBB1QBB1QBB1QBB1",
    "QBB1QBB1QBB1QBB1QBB1QBB1QBB1QBB1QBB1QBB1QBB1QBB1QBB1QBB1QBB1QBB1QBB1QBB1Q1RBBHBBCBBCBBHBBDBB",
    "LBBCBBCBBCBBCBBCBBCBBCBBCBBCBBCBBCBBCBBCBBCBBCBBCBBCBBCBBCBBCBBCBBCBBCBBCBBCBBCBBCBBCBBCBBCB",
    "BCBBCBBCBBCBBCBBCBBCBBCBBCBBCBBCBBCBBCBBCBBCBBCBBCBBCBBCBBJBBCBBFBBuaOBBCBBCBBCBBCBBEBBCBBCB",
    "BCBBCBBCBBCBBCBBCBBCBBCBBCBBCBBCBBCBBCBBCBBUBBCBBCBBCBBCBBCBBCBBCBBCBBCBBCBBCBBCBBCBB4IBBCBB",
    "CBBCBBCBBCBBCBBEBBCBBCBBCBBCBBCBBCBBCBBCBBCBBCBBCBBCBBCBBCBBCBBCBBCBBCBBCBBCBBCBBCBBCBBCBBCB",
    "BCBBCBBCBBCBBCBBLBBCBBDBBCBBCBBCBBCBBFBBFBBCBBCB1QCBBCBBCBBCBBCBBCBBCBBCBBCBBCBBLBtABBBCBBCB",
    "BCBBCBBCBBCBBCBBFBBCBBDBBCBBCBBCBBCBBCBBCBBCBBxBBkoQBB10yB1ABB1ABB1ABB1ABB1ABB1ABB1ABB1ABB1A",
    "BB1ABB1ABB1ABB1ABB1ABB1ABB1ABB1ABB1ABB1ABB1ABB1ABB1ABB1ABB1ABB1ABB1A16GB1IBB1IBB1IBB1IBB1IBB",
    "1IBB1IBB1IBB1IBB1IBB1IBB1IBB1IBB1IBB1IBB1IBB1IBB1IBB1IBB1IBB1IBB1IBB1IBB1IBB1IBB1IBB1IBB1IBB",
    "1IBB1IBB1IBB1IBB1IBB1IBB1IBB1IBB1IBB1IBB1IBB1I4JB1IBB1IBB1IBB1IBB1IBB1IBB1IBB1IBB1IBB1IBB1IB",
    "B1IBB1IBB1IBB1IBB1IBB1IBB1IBB1IBB1IBB1IBB1IBB1IBB1IBB1IBB1IBB1IBB1IBB1IBB1IBB1IBB1IBB1IBB1IB",
    "B1IBB1I4zB1HBB1HBB1HBB1HBB1HBB1HBB1HBB1HBB1HBB1HBB1HCB1HBB1HBB1HBB1HBB1HBB1HBB1HBB1HBB1HBB1H",
    "BB1HBB1HBB1HBB1HBB1HCB1HBB1HBB1HBB1HBB1HBB1HBB1HCB1HBB1H1nLB2ABB2ABB2ABB2ABB2ABB2ABB2ABB2ABB",
    "2ABB2ABB2ABB2ABB2ABB2ABB2ABB2ABB2ABB2ABB2ABB2ABB2ABB2ABB2ABB2ABB2ABB2ABB2ABB2ABB2ABB2ABB2ABB",
    "2ABB2ABB2ABB2ABB2ABB2ABB2ABB2ABB2ABB2ABB2ABB2ABB2ABB2ABB2ABB2ABB2ABB2ABB2ABB2A4+B1ABB1ABB1AB",
    "B1ABB1ABB1ABB1ABB1ABB1ABB1ABB1ABB1ABB1ABB1ABB1ABB1ABB1ABB1ABB1ABB1ABB1ABB1A2pxB1ABB1ABB1ABB1",
    "ABB1ABB1ABB1ABB1ABB1ABB1ABB1ABB1ABB1ABB1ABB1ABB1ABB1ABB1ABB1ABB1ABB1ABB1ABB1ABB1ABB1ABB1ABB1",
    "ABB1ABB1ABB1ABB1ABB1AlcBB1ABB1ABB1ABB1ABB1ABB1ABB1ABB1ABB1ABB1ABB1ABB1ABB1ABB1ABB1ABB1ABB1AB",
    "B1ABB1ABB1ABB1ABB1ABB1ABB1ABB1ABB1ABB1ABB1ABB1ABB1ABB1ABB1A2BBxBBxBBxBBxBBxBBxBBxBBxBBxBBxBB",
    "xBBxBBxBBxBBxBBxBBxBBxBBxBBxBBxBBxBBxBBxBBxuiIB1CBB1CBB1CBB1CBB1CBB1CBB1CBB1CBB1CBB1CBB1CBB1",
    "CBB1CBB1CBB1CBB1CBB1CBB1CBB1CBB1CBB1CBB1CBB1CBB1CBB1CBB1CBB1CBB1CBB1CBB1CBB1CBB1CBB1CBB1C"]

/-- Reads `count` further members, each given by its distance from the one before. -/
def orbitMembers (last : Nat) : Nat → List Nat → List Nat → List Nat × List Nat
  | 0, done, rest => (done.reverse, rest)
  | _ + 1, done, [] => (done.reverse, [])
  | count + 1, done, d :: rest => orbitMembers (last + d) count ((last + d) :: done) rest

/-- Reads the sets from unpacked numbers; the fuel is their count. -/
def readOrbits : Nat → Nat → List (List Nat) → List Nat → List (List Nat)
  | fuel + 1, first, done, d :: count :: rest =>
    let (members, rest) := orbitMembers (first + d) count [first + d] rest
    readOrbits fuel (first + d) (members :: done) rest
  | _, _, done, _ => done.reverse

/-- The sets of characters that differ in case only. Characters in none of them are alone. -/
def caseOrbits : List (List Nat) :=
  let numbers := unpackNumbers packedOrbits
  readOrbits numbers.length 0 [] numbers

end CodeOutline.Unicode
