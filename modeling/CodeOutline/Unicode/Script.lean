import CodeOutline.Unicode.Ranges

/-! # Scripts

The characters of each script. Under script extensions a script has more characters: those that
are in common use and belong to it among others. The two scripts that stand for common use have
fewer.
-/

namespace CodeOutline.Unicode

/-- The characters whose script is the one named. -/
def scripts : List NamedRanges := [
  ⟨["adlm", "adlam"], "3q8A2LEJEB"⟩,
  ⟨["aghb", "caucasianalbanian"], "219Q1TLA"⟩,
  ⟨["ahom"], "25oAwCOEW"⟩,
  ⟨["arab", "arabic"], String.join [
      "1gAEBFBNBCB-BJLZB3LB1B2Q1P7Q1BF2KBy1siQfNC4P1AP3QEB4G3rD+2DFII1BF1noADBwBBBACABJBDBABAGAEABA",
      "BABCBBBACABABABABABBBACDBGBDBDBABJBQFCBEBQ1UB"]⟩,
  ⟨["armi", "imperialaramaic"], "222AVBI"⟩,
  ⟨["armn", "armenian"], "19R1FC1RCC1tcDE"⟩,
  ⟨["avst", "avestan"], "22oA1VDG"⟩,
  ⟨["bali", "balinese"], "6oA2MB1R"⟩,
  ⟨["bamu", "bamum"], "19lA2X1g8IhY"⟩,
  ⟨["bass", "bassavah"], "2qmQzCF"⟩,
  ⟨["batk", "batak"], "6uA1TID"⟩,
  ⟨["beng", "bengali"], "2cADBHCBCVBGBADDCICBCDIAEBBECY"⟩,
  ⟨["bhks", "bhaiksuki"], "270AIB1MBNKy"⟩,
  ⟨["bopo", "bopomofo"], "nKBbgZ1K3Q-"⟩,
  ⟨["brah", "brahmi"], "240A2NE1DJA"⟩,
  ⟨["brai", "braille"], "a0A7-"⟩,
  ⟨["bugi", "buginese"], "6gAxCB"⟩,
  ⟨["buhd", "buhid"], "5qAT"⟩,
  ⟨["cakm", "chakma"], "248A1UBR"⟩,
  ⟨["cans", "canadianaboriginal"], "50Aj-hQ2F20dwP"⟩,
  ⟨["cari", "carian"], "20lA1Q"⟩,
  ⟨["cham"], "1agA1WJNCJCD"⟩,
  ⟨["cher", "cherokee"], "4tA2VCF15rS2P"⟩,
  ⟨["chrs", "chorasmian"], "23tQx"⟩,
  ⟨["copt", "coptic", "qaac"], "vCNa4Q3TFG"⟩,
  ⟨["cpmn", "cyprominoan"], "2bsQ3C"⟩,
  ⟨["cprt", "cypriot"], "220AFCAB1LBBDACA"⟩,
  ⟨["cyrl", "cyrillic"], "10A4EC5I5qQK5AA2MA43H-u2A2-lsOB1ogA1z1BA"⟩,
  ⟨["deva", "devanagari"], "28A2QEOCZ17rA-sgAJ"⟩,
  ⟨["diak", "divesakuru"], "268AGCACHBBBzBBCLJJ"⟩,
  ⟨["dogr", "dogra"], "260A1x"⟩,
  ⟨["dsrt", "deseret"], "210A2P"⟩,
  ⟨["dupl", "duployan"], "3f0A3KFMDIHJCD"⟩,
  ⟨["egyp", "egyptianhieroglyphs"], "2c0A12VK3sw"⟩,
  ⟨["elba", "elbasan"], "218A1H"⟩,
  ⟨["elym", "elymaic"], "23vAW"⟩,
  ⟨["ethi", "ethiopic"], "4gA2IBDCGBABDC1IBDC1ABDCGBABDCOB1YBDC2CC-DZ6fGWJGBGBGBGBGBGBGBGv9CFCFCFJGBG2f5RGBDBBBO"⟩,
  ⟨["geor", "georgian"], "45A1FBAFAC1KBD2sQ1KCC42A1FBAFA"⟩,
  ⟨["glag", "glagolitic"], "b0A2-3ctAGBQCGBBBE"⟩,
  ⟨["gong", "gunjalagondi"], "27bAFBBB1EBBBFHJ"⟩,
  ⟨["gonm", "masaramgondi"], "278AGBBB1LDABBBIIJ"⟩,
  ⟨["goth", "gothic"], "20pQw"⟩,
  ⟨["gran", "grantha"], "24oADBHCBCVBGBBBECICBCCCAGAFGCGDE"⟩,
  ⟨["grek", "greek"], "rQDBCCDBAEABABCBABTB1+OP69GE1SEEE2UAaAVCFC1FCFCHBABABAB+C1UBOBNCFBSCCBI9HA12h+Alew2ORA1k2-2F"⟩,
  ⟨["gujr", "gujarati"], "2kBCBIBCBVBGBBBECJBCBCCAPDCLHG"⟩,
  ⟨["guru", "gurmukhi"], "2gBCBFEBCVBGBBBBBBCABEEBCCDAHDBAHQ"⟩,
  ⟨["hang", "hangul"], "48A7-7hOB8B2z3R+2B+tnBykDatDMWE1Q9tE+DFCFCFCC"⟩,
  ⟨["hani", "han"], "bkAZB2YM6V1PABAZIODuE6d-2Akf-m8AbNC3Jt8IBMG140J19m-1A48zC5kNC79QPjN2dCgz1fC4qKF89J"⟩,
  ⟨["hano", "hanunoo"], "5pAU"⟩,
  ⟨["hatr", "hatran"], "227ASBBFE"⟩,
  ⟨["hebr", "hebrew"], "1cR1WIwEF1t9IZBEBABBBBBJ"⟩,
  ⟨["hira", "hiragana"], "c2B2VGC2vrB8+SAzCg5NA"⟩,
  ⟨["hluw", "anatolianhieroglyphs"], "2h0AiG"⟩,
  ⟨["hmng", "pahawhhmong"], "2qoA2FKJBGBUFS"⟩,
  ⟨["hmnp", "nyiakengpuachuehmong"], "3o8A1MDNCJEB"⟩,
  ⟨["hung", "oldhungarian"], "234A1SN1SHF"⟩,
  ⟨["ital", "olditalic"], "20oA1DJC"⟩,
  ⟨["java", "javanese"], "1acA2NCJEB"⟩,
  ⟨["kali", "kayahli"], "1a8A1NBA"⟩,
  ⟨["kana", "katakana"], "c5B2ZCC7QP6Q1OB2X1j0OJB1M1c2SDBGBBBA8-C1SAOD"⟩,
  ⟨["kawi"], "27oAQB1IDy"⟩,
  ⟨["khar", "kharoshthi"], "22gADBBFHBCByCCEJHI"⟩,
  ⟨["khmr", "khmer"], "5sA2zCJGJfG-"⟩,
  ⟨["khoj", "khojki"], "24gARB1O"⟩,
  ⟨["kits", "khitansmallscript"], "2rvEA6oxeV1JA"⟩,
  ⟨["knda", "kannada"], "34AMBCBWBJBECIBCBDHBFCBDCJBC"⟩,
  ⟨["kthi", "kaithi"], "244A2CKA"⟩,
  ⟨["lana", "taitham"], "6hA1+ByCKGJGN"⟩,
  ⟨["laoo", "lao"], "3kBBBABEBXBABWCEBABGBJCD"⟩,
  ⟨["latn", "latin"], String.join [
      "2BZGZ1PAPAFWB+BeA1HE6gx1FG1QFDFMB2F2B7-bRANAQM4NBGAxAR1I2mX-ulC3FD2RUOpQ1KBIBDjsWG10wZGZ21FF",
      "B1JBI1lqF+GF"]⟩,
  ⟨["lepc", "lepcha"], "70A1XDODC"⟩,
  ⟨["limb", "limbu"], "68A+BLELEADL"⟩,
  ⟨["lina", "lineara"], "21gA9WJVKH"⟩,
  ⟨["linb", "linearb"], "200ALBZBSBBBOCN1C3w"⟩,
  ⟨["lisu"], "196Q1PulQA"⟩,
  ⟨["lyci", "lycian"], "20kAy"⟩,
  ⟨["lydi", "lydian"], "229AZFA"⟩,
  ⟨["mahj", "mahajani"], "24aQ1G"⟩,
  ⟨["maka", "makasar"], "27nAY"⟩,
  ⟨["mand", "mandaic"], "22AxCA"⟩,
  ⟨["mani", "manichaean"], "22mA1GEL"⟩,
  ⟨["marc", "marchen"], "273Q-CVBN"⟩,
  ⟨["medf", "medefaidrin"], "2riA2w"⟩,
  ⟨["mend", "mendekikakui"], "3q0A6ECP"⟩,
  ⟨["merc", "meroiticcursive"], "22dAXETC1N"⟩,
  ⟨["mero", "meroitichieroglyphs"], "22cA-"⟩,
  ⟨["mlym", "malayalam"], "38AMBCB1SBCBFEPCZ"⟩,
  ⟨["modi"], "25gA2ELJ"⟩,
  ⟨["mong", "mongolian"], "60ABCABTG2YH1K1vdVM"⟩,
  ⟨["mroo", "mro"], "2qiA+BJEB"⟩,
  ⟨["mtei", "meeteimayek"], "1anAW6J1NCJ"⟩,
  ⟨["mult", "multani"], "24kAGBABDBOBK"⟩,
  ⟨["mymr", "myanmar"], "40A4-16aA+3B-r2QT"⟩,
  ⟨["nagm", "nagmundari"], "3p6Q1J"⟩,
  ⟨["nand", "nandinagari"], "26dAHC1NCK"⟩,
  ⟨["narb", "oldnortharabian"], "22kA-"⟩,
  ⟨["nbat", "nabataean"], "224A+II"⟩,
  ⟨["newa"], "250A2xBE"⟩,
  ⟨["nkoo", "nko"], "1uA1wCC"⟩,
  ⟨["nshu", "nushu"], "2rvBAgcOcL"⟩,
  ⟨["ogam", "ogham"], "5kAy"⟩,
  ⟨["olck", "olchiki"], "72Q1P"⟩,
  ⟨["orkh", "oldturkic"], "230A2I"⟩,
  ⟨["orya", "oriya"], "2oBCBHCBCVBGBBBECICBCCHCEBBECR"⟩,
  ⟨["osge", "osage"], "215Q1DE1D"⟩,
  ⟨["osma", "osmanya"], "214AzCJ"⟩,
  ⟨["ougr", "olduyghur"], "23rQZ"⟩,
  ⟨["palm", "palmyrene"], "223A-"⟩,
  ⟨["pauc", "paucinhau"], "26mA1Y"⟩,
  ⟨["perm", "oldpermic"], "20qQ1K"⟩,
  ⟨["phag", "phagspa"], "1a2A1X"⟩,
  ⟨["phli", "inscriptionalpahlavi"], "22rASFH"⟩,
  ⟨["phlp", "psalterpahlavi"], "22sARHDMG"⟩,
  ⟨["phnx", "phoenician"], "228AxDA"⟩,
  ⟨["plrd", "miao"], "2roA2KE1YHQ"⟩,
  ⟨["prti", "inscriptionalparthian"], "22qAVCH"⟩,
  ⟨["rjng", "rejang"], "1a9Q1DLA"⟩,
  ⟨["rohg", "hanifirohingya"], "238A1HIJ"⟩,
  ⟨["runr", "runic"], "5lA2KDK"⟩,
  ⟨["samr", "samaritan"], "20A1NCO"⟩,
  ⟨["sarb", "oldsoutharabian"], "22jA-"⟩,
  ⟨["saur", "saurashtra"], "1a4A2FIL"⟩,
  ⟨["sgnw", "signwriting"], "3m0AkLPEBO"⟩,
  ⟨["shaw", "shavian"], "212Q1P"⟩,
  ⟨["shrd", "sharada"], "24cA2-2cAH"⟩,
  ⟨["sidd", "siddham"], "25cA1VC1F"⟩,
  ⟨["sind", "khudawadi"], "24lQ1wFJ"⟩,
  ⟨["sinh", "sinhala"], "3cBCBRDXBIBACGDAEFBABHGJCC20vMT"⟩,
  ⟨["sogd", "sogdian"], "23pQ1J"⟩,
  ⟨["sogo", "oldsogdian"], "23oA1H"⟩,
  ⟨["sora", "sorasompeng"], "246QYHJ"⟩,
  ⟨["soyo", "soyombo"], "26iQ2S"⟩,
  ⟨["sund", "sundanese"], "6sA1-8AH"⟩,
  ⟨["sylo", "sylotinagri"], "1a0A1M"⟩,
  ⟨["syrc", "syriac"], "1oANB1xCC8QK"⟩,
  ⟨["tagb", "tagbanwa"], "5rAMBCBB"⟩,
  ⟨["takr", "takri"], "25kA1ZGJ"⟩,
  ⟨["tale", "taile"], "6aQzCE"⟩,
  ⟨["talu", "newtailue"], "6cA1LEZGKDB"⟩,
  ⟨["taml", "tamil"], "2sCBBFDCBDDBBABBDBDCDLEEDCBDCAGAOU24uF1RNA"⟩,
  ⟨["tang", "tangut"], "2rvAA-6n-gA+3B3S"⟩,
  ⟨["tavt", "taiviet"], "1akA2CYE"⟩,
  ⟨["telu", "telugu"], "30AMBCBWBPCIBCBDHBBCBBCDCJHI"⟩,
  ⟨["tfng", "tifinagh"], "b9Q1XHBOA"⟩,
  ⟨["tglg", "tagalog"], "5oAVJA"⟩,
  ⟨["thaa", "thaana"], "1sA1R"⟩,
  ⟨["thai"], "3gB1ZFx"⟩,
  ⟨["tibt", "tibetan"], "3oA2HB1DE1GB1DBOBGEB"⟩,
  ⟨["tirh", "tirhuta"], "254A2HIJ"⟩,
  ⟨["tnsa", "tangsa"], "2qjQ2OBJ"⟩,
  ⟨["toto"], "3okQ+"⟩,
  ⟨["ugar", "ugaritic"], "20sAzBA"⟩,
  ⟨["vaii", "vai"], "198A9L"⟩,
  ⟨["vith", "vithkuqi"], "21bQKBOBGBBBKBOBGBB"⟩,
  ⟨["wara", "warangciti"], "265A2SMA"⟩,
  ⟨["wcho", "wancho"], "3omA1ZFA"⟩,
  ⟨["xpeo", "oldpersian"], "20tA1DEN"⟩,
  ⟨["xsux", "cuneiform"], "280AsZ3G3OBEL6D"⟩,
  ⟨["yezi", "yezidi"], "23kA1JBCCB"⟩,
  ⟨["yiii", "yi"], "180A14MD1W"⟩,
  ⟨["zanb", "zanabazarsquare"], "26gA2H"⟩,
  ⟨["zinh", "inherited", "qaai"], String.join [
      "oA3P8VBeEKwAnAD4ax1NCLfECBMBGEAGADB6G1-gMB6C1A3pZD3LB1jbFPQNuPA7CA42wA1euE1NCWhACRHCG+DobqS7",
      "P"]⟩,
  ⟨["zyyy", "common"], String.join [
      "A2AwFw1OBOBEXA-AeB1GFECT3UAJAGABAjzAGAOADA1AA4yAgEA4BB16ZAcVD9CA1fPC2HB6LBBA16NANAHDBFBCCAoF",
      "LC2WBKDKBOR1B1+1FBCCFBwBQ1JCEkZWKVs-8AjTC4JgA2zcSUBABYPHED2xBDA2wB4TP1A1FJA1Q1--2Q1PA2Y5H6eA",
      "1-m8A1B3GC5FJ7UA5AAcLAOBkeSB6QJW1CBSBD4TAB-wFwKKA1NB2AGBGKE8CCE1MDI2QM1T1M7Ew1edED3qy7yDdTGW",
      "PQ2-3T1y7VK1GC1zDQIBHzE1y6VTMTM2WJY4H2UB2GBBCACBCDBLBABGB2ABDCHBGBxBDBEBADGBaTC9DC1R53R2D2M1",
      "ymC1LE3DMOCOBOB1EK5N1YZBBN1LEIHBOF4wuYDQDMD6ZGLEAPLE1XIJG1HIzCLEBOI1HaXINCMDKD1YBAEPCLEJH4SB",
      "3Go10GA+2-"]⟩,
  ⟨["gara", "garay"], "23aA1FDyIB"⟩,
  ⟨["gukh", "gurungkhema"], "2o8A1Z"⟩,
  ⟨["krai", "kiratrai"], "2raA1Z"⟩,
  ⟨["onao", "olonal"], "3peQ1KEA"⟩,
  ⟨["sunu", "sunuwar"], "26uA1BOJ"⟩,
  ⟨["todr", "todhri"], "21eA1T"⟩,
  ⟨["tutg", "tulutigalari"], "24sAJBACAB1FBJBACABDBJBBIB"⟩,
  ⟨["berf", "beriaerfe"], "2rlAYCY"⟩,
  ⟨["sidt", "sidetic"], "22aAZ"⟩,
  ⟨["tayo", "taiyo"], "3pmA+BVIB"⟩,
  ⟨["tols", "tolongsiki"], "27dQ1LEJ"⟩]

/-- The characters of other scripts that a script has under script extensions. -/
def sharedInScript : List NamedRanges := [
  ⟨["adlm", "adlam"], "1g-A1AA6gOA3fRA"⟩,
  ⟨["aghb", "caucasianalbanian"], "oEA1MA1MA"⟩,
  ⟨["arab", "arabic"], "1gMAOADA1AAKKwA6e+A3fRA1jnyB1dAx"⟩,
  ⟨["armn", "armenian"], "oIA"⟩,
  ⟨["avst", "avestan"], "5XAbbYB"⟩,
  ⟨["beng", "bengali"], "lyA1kUBRB4rKABACBBAIAIACAEACC12vZA"⟩,
  ⟨["bopo", "bopomofo"], "mHABCNAb9HCEJBMKDCAGA6DA1jaJB8wE"⟩,
  ⟨["bugi", "buginese"], "1aePA"⟩,
  ⟨["buhd", "buhid"], "5pVB"⟩,
  ⟨["cakm", "chakma"], "2fGJ1iQJ"⟩,
  ⟨["cari", "carian"], "5XA7tCACA3eTA"⟩,
  ⟨["cher", "cherokee"], "oACBAGBWBLB"⟩,
  ⟨["copt", "coptic", "qaac"], "5XAiIADBBA3MBalBA1l6Ix"⟩,
  ⟨["cpmn", "cyprominoan"], "208AB"⟩,
  ⟨["cprt", "cypriot"], "208ACE1MDI"⟩,
  ⟨["cyrl", "cyrillic"], "lyA2DCBABABACAFAbTB6bRA42KA"⟩,
  ⟨["deva", "devanagari"], "lyA1kUBRB4rK1GBBvWA11p-J"⟩,
  ⟨["dogr", "dogra"], "2bEL17mAJ"⟩,
  ⟨["dupl", "duployan"], "5XAiPBBAYBaoXA33jDD"⟩,
  ⟨["elba", "elbasan"], "5XAiNA"⟩,
  ⟨["ethi", "ethiopic"], "oOA"⟩,
  ⟨["geor", "georgian"], "5XA16RA2rRA3q+A3eWA"⟩,
  ⟨["glag", "glagolitic"], "5XAiLABAb+ACA8BA2rRA3q+A3fIAu1LA"⟩,
  ⟨["gong", "gunjalagondi"], "5XA25MB"⟩,
  ⟨["gonm", "masaramgondi"], "2bEB"⟩,
  ⟨["goth", "gothic"], "5XAiMBCA1IA"⟩,
  ⟨["gran", "grantha"], "2aRBRBkAN46yABB+CDBvWA1siKA34UBBA"⟩,
  ⟨["grek", "greek"], "5XAiIBCABABAKA1OACA1OA6iLBkxA"⟩,
  ⟨["gujr", "gujarati"], "2aRBRB17mKJ"⟩,
  ⟨["guru", "gurmukhi"], "2aRBRB17mKJ"⟩,
  ⟨["hang", "hangul"], "c0BCEJBMQAGA6DA1jaJB8wE"⟩,
  ⟨["hani", "han"], "5XAbpYPBCCABJBMKDCAGAED5xA4UP1A1FJA1Q1H1Y1QPL1TA2YYKE3A+soBHlpzB8wE1kvwR7m+B"⟩,
  ⟨["hano", "hanunoo"], "5pVB"⟩,
  ⟨["hebr", "hebrew"], "oHB"⟩,
  ⟨["hira", "hiragana"], "c0BCEJBMQFBAEB2xDDA2wB1jaIB8wEKA1NB"⟩,
  ⟨["hung", "oldhungarian"], "82wACA3eTAPA"⟩,
  ⟨["java", "javanese"], "1aePA"⟩,
  ⟨["kali", "kayahli"], "1a9OA"⟩,
  ⟨["kana", "katakana"], "oFAzAb6zCEJBMQFBAEB2xDDA2wB1jaIB8wEKA1NB"⟩,
  ⟨["khoj", "khojki"], "2nGJ17aAJ"⟩,
  ⟨["knda", "kannada"], "2aRBRB4rKABBGAXABA12pxF"⟩,
  ⟨["kthi", "kaithi"], "2bGJ96BAuf+J"⟩,
  ⟨["latn", "latin"], "5XAgEAKABCBAJABA1GOBBBAPCHBBB1GAFAEM8VB16KB1tIA37yAhWA6AA39GAu7IHhGA"⟩,
  ⟨["limb", "limbu"], "2bFA"⟩,
  ⟨["lina", "lineara"], "208H1M"⟩,
  ⟨["linb", "linearb"], "208ACE1MDI"⟩,
  ⟨["lisu"], "lyAQAb9yB"⟩,
  ⟨["lyci", "lycian"], "82wA"⟩,
  ⟨["lydi", "lydian"], "5XAbbZA"⟩,
  ⟨["mahj", "mahajani"], "5XA25ML17mAJ"⟩,
  ⟨["mand", "mandaic"], "1iAA"⟩,
  ⟨["mani", "manichaean"], "1iAA"⟩,
  ⟨["mero", "meroitichieroglyphs"], "82zA"⟩,
  ⟨["mlym", "malayalam"], "2aRBRB4rUAXA12pzC"⟩,
  ⟨["modi"], "1a1QJ"⟩,
  ⟨["mong", "mongolian"], "60CBBA21JA3uRBFD"⟩,
  ⟨["mult", "multani"], "2jGJ"⟩,
  ⟨["mymr", "myanmar"], "1a9OA"⟩,
  ⟨["nand", "nandinagari"], "2aRASBsAJ3vZAIAHA12pVF"⟩,
  ⟨["newa"], "2aRB4sCABBJAGABABA"⟩,
  ⟨["nkoo", "nko"], "1gMAOADA1to+B"⟩,
  ⟨["orkh", "oldturkic"], "82wA3eVA"⟩,
  ⟨["orya", "oriya"], "2aRBRB4rUAXA"⟩,
  ⟨["osge", "osage"], "oBACAGA2MA"⟩,
  ⟨["ougr", "olduyghur"], "1iAA215RA"⟩,
  ⟨["perm", "oldpermic"], "5XAiIAFCKAbPA"⟩,
  ⟨["phag", "phagspa"], "60CBBA21JA3uSA"⟩,
  ⟨["phlp", "psalterpahlavi"], "1iAA"⟩,
  ⟨["rohg", "hanifirohingya"], "1gMAOADA1AA4TA"⟩,
  ⟨["runr", "runic"], "5nLC"⟩,
  ⟨["samr", "samaritan"], "bhRA"⟩,
  ⟨["shaw", "shavian"], "5XA"⟩,
  ⟨["shrd", "sharada"], "2aRA4sFABACBCAJACA12qCFCA"⟩,
  ⟨["sind", "khudawadi"], "2bEB17mKJ"⟩,
  ⟨["sinh", "sinhala"], "2bEB4sMA"⟩,
  ⟨["sogd", "sogdian"], "1iAA"⟩,
  ⟨["sylo", "sylotinagri"], "2bEB4AJ"⟩,
  ⟨["syrc", "syriac"], "oDBCBBAYCHBBBmwAOBCA1AAKKwA5sHABA"⟩,
  ⟨["tagb", "tagbanwa"], "5pVB"⟩,
  ⟨["takr", "takri"], "2bEB17mKJ"⟩,
  ⟨["tale", "taile"], "oABFBDA39TJ"⟩,
  ⟨["taml", "tamil"], "2aRBRB4rUA130YAqgNABA1XB"⟩,
  ⟨["tang", "tangut"], "bvQPfPA"⟩,
  ⟨["telu", "telugu"], "2aRBRB4rPBBABAXA"⟩,
  ⟨["tfng", "tifinagh"], "oCABABDZA"⟩,
  ⟨["tglg", "tagalog"], "5pVB"⟩,
  ⟨["thaa", "thaana"], "1gMAOBCA2AJ1tsIAKA"⟩,
  ⟨["thai"], "lyAwA1LA1NA"⟩,
  ⟨["tibt", "tibetan"], "c0ID"⟩,
  ⟨["tirh", "tirhuta"], "2aRBRB4rPAMAPA12pzJ"⟩,
  ⟨["toto"], "lyA"⟩,
  ⟨["yezi", "yezidi"], "1gMAOADA2AJ"⟩,
  ⟨["yiii", "yi"], "c0BBFJCH6-A1jjFE"⟩,
  ⟨["gara", "garay"], "1gMAOADA"⟩,
  ⟨["gukh", "gurungkhema"], "2bFA"⟩,
  ⟨["onao", "olonal"], "2bEB"⟩,
  ⟨["sunu", "sunuwar"], "oABBAJACAyADA"⟩,
  ⟨["todr", "todhri"], "oBACACAJABA2KA"⟩,
  ⟨["tutg", "tulutigalari"], "37GJ40CABA12pxF5xA"⟩]

/-- The characters of the scripts of common use under script extensions. -/
def unsharedInCommon : List NamedRanges := [
  ⟨["zinh", "inherited", "qaai"], "oPACABODGCACPBBBRBEBD1fQB4ax1NCLmW1VBABEgMB6C-1n8QPQNuPA1j8C1NCWhACRHCG+DobqS7P"⟩,
  ⟨["zyyy", "common"], String.join [
      "A2AwFw1OBLBBBEXA-AeBCBJBADABIBABFFECT3+AGABAjzA6XAgEA1ayAcVD41HLC1AB+BJBBBGBKDKBOR1B1+1FBCCF",
      "BwBQ1JCEkZWKVs-8AjTC4JgAWBXCJBDBABZdCADANANAVAgRX-A1ROMD5BJF2--A6eA1-m8IZ3GCuQAOBklEJWUCLBSB",
      "D4TAB-wFwF3-GBGKEcSM1T1M1igD7yDdTGWPQ2-3T1y7VK1GC1zDQIBHzE1y6VTMTM2WxG4H2UB2GBBCACBCDBLBABGB",
      "2ABDCHBGBxBDBEBADGBaTC9DC1R53R2D2M1ymC1LE3DMOCOBOB1EK5N1YZBBN1LEIXF4wuYDQDMD6ZGLEAPLE1XIJG1H",
      "IzCLEBOI1HaXINCMDKD1YBAEPCLEJH4SB3Go10GA+2-"]⟩]

/-- The ranges of a script, by its normalised name. -/
def scriptRanges? (name : String) : Option (List Range) :=
  find? scripts name

/-- The ranges of a script under script extensions, by its normalised name. -/
def scriptExtensionRanges? (name : String) : Option (List Range) :=
  match find? unsharedInCommon name with
  | some rs => some rs
  | none => (find? scripts name).map (· ++ (find? sharedInScript name).getD [])

end CodeOutline.Unicode
