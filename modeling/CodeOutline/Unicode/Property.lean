import CodeOutline.Unicode.Category

/-! # Binary properties

The characters that have each of the binary properties, and the three classes that patterns name
by a letter.
-/

namespace CodeOutline.Unicode

/-- The characters that have the property named. -/
def binaryProperties : List NamedRanges := [
  ⟨["ahex", "asciihexdigit"], "1QJHFwF"⟩,
  ⟨["alpha", "alphabetic"], String.join [
      "2BZGZ1PAKAEAFWB+BeJELOEHABA2WAzRBBCDBAGABCBABTB2SB4KI5FB1FCAG1I1HNBABBBBBAIwEDzKF1XBGO3FBHEH",
      "ECKCCAQ1PN3EY1AJBEAFXCSTYHKFXBGHAI1JKLDGG2LBPBCEONSBHCBCVBGBADDDHCBCBBAIAEBBEMBKAECBFEBCVBGB",
      "BBBBBEEEBCBEAHDBARFLCBIBCBVBGBBBEDIBCBBDAPDVDECBHCBCVBGBBBEDHCBCBJBEBBENAQBBFDCBDDBBABBDBDCD",
      "LEEDCBCDAGA1IMBCBWBPDHBCBCIBBCBBCDyDBHBCBWBJBEDHBCBCIBFCBDNCMMBCB1ICHBCBCBAFDHEWFBCBRDXBIBAC",
      "GIFBABHSBN1ZFGGA1TBBABEBXBABSBCCEBAGAOD1AA1-HB1DESEPB1D2D1WBACEQ1-KDC1FBAFAC1KBaMBDCGBABDC1I",
      "BDC1ABDCGBABDCOB1YBDC2C1FPQ2VCFDjLCQBZF2KDKHTLUMTMMBCBBM1TCSOAEA2D2YH1KF2FK+BLEIXzCEL1LEZ1Wx",
      "E1+CT1SAXBLC1R1TBOBH1T1JCDK1LBKO1WWCK1DCKF1KCC1JDBFBBDAF5-T1BL8VCFC1FCFCHBABABAB+C1UBGBADCBG",
      "DDCFEMFCBG3UANAQM3FAEACJBADEGABABABDBKCDFEEAR1IpN1T1oW7EGDDBM1FBAFAC1XHAQWJGBGBGBGBGBGBGBGB-",
      "1PAeVCZIHECEE2VGCB2ZBDF1KB2zR-1QPgA6d-2AlkM2D1NC8MDPKBU1OFHD3Q1HIC3GC2RUUB1AY1TM2DBA1MFDABCK",
      "1AF1CNyD1SBLPAQPKEB1WJNSWD2EBABAYCCPCDLFCFCFJGBGB1KBNG3wVatDMWE1Q88EbNC3J1GGMEFLBMBEBABBBBB3",
      "L1BbKS1-C1V1IL3UEB4G1EZGZL2YDFCFCFCC1DLBZBSBBBOCN1C3w2F1U8LyD1Q1P-NzF1KFzC1DEHBE1K4zS1DE1DE1",
      "HI1TMKBOBGBBBKBOBGBBD1TM9WJVKHYFB1JBI2FFCAB1LBBDACWKWJ+2BSBBKVKZGZ1G1XGB2ADBBFHBCBy1KyDy1DHB",
      "xx1VKVKSNR3O2I1X1SN1SN1H1CxDAFW7w1JBBDBQF1SCDyKAIV1KR1OUxWJ2F1LEK1YJANYX1SRDI1CDAJ1-BDJBKABA",
      "1DRB1BCAGD1+GBABDBOBJH1YXDBHCBCVBGBBBEDHCBCBDAGAFGyJBACAB1FBJBACABDBBDABA1M2BBCBDUC+2BCBBA5Y",
      "1VCGZF1C1+BADA1x1VCA2HwCNVG5Z1Y3H1--HCACHBBBzBBCBCD2zHC1NCFBABBx1SCJR2HFAS2I3HH2Y1A-IB1MBGBA",
      "1RzCVBN2JGBBB1LDABBBCBACBYFBBB1EBBBDBAX1L8EWJQB1IDC3PA2PsZ3G3OR6D2iM3AP11PRFZ3swFiG6lZ1O1mRh",
      "YH+R2ORzS1PQD-UFSdQ1M6T1-1AYCY1M2KE1YHQ2ABBAMGJ76V1J-3B3S8fzDBGBBB9CPAzCCAODIcL28E3KFMDIHJEA",
      "5rB2UB2GBBCACBCDBLBABGB2ABDCHBGBxBDBEBADGBaTCYBYB+BYB+BYB+BYB+BYBH1pU+GF6VGBQCGBBBEF1z1BA3Q1",
      "MKGQAaBzS1LfEx7EzCA6P+BVIB7AGBDBBBOB6E1x2DDADA15UDBwBBBACABJBDBABAGAEABABABCBBBACABABABABABB",
      "BACDBGBDBDBABJBQFCBEBQjUZGZGZ3jW19m-1A48zC5kNC79QPjN2dCgz1fC4qKF89J"]⟩,
  ⟨["bidic", "bidicontrol"], "1gyA6fRBwE1XD"⟩,
  ⟨["bidim", "bidimirrored"], String.join [
      "1IBSABAyABAzABA1NAPA3j+D1qzB2cyBKB1WBOB5RA6ADDFDADBDDBDBABAEIFABRFDJBBABHB-CDFAJBCSFBJECBEXC",
      "PIDUBHB11zN2KACDBBBCFDFCDNcTVCFBNIAHFDAEEBBCEEABCCBKFCBMSBDCABACABDFBGCYBLBEDBBCBE1KCHB1HFAB",
      "ADEFCEADEBA8AAgDDDBBBOBCJ1LHdLJCH1jhzFFB5CBSABAyABAzABABBBB1lrXA1ZA1ZA1ZA1ZA"]⟩,
  ⟨["ci", "caseignorable"], String.join [
      "1HAGALA1DABA2HAEABAEACBfX5-EBEAJBBA7xG6PAFA1R1MBABBBBBA1MALFKKBA1DAKUQA3FHBJBD1BABA+w2xK1wKE",
      "ACAYX1LC1MAHBFI1J1Z1XABAEHEADGKBNAPA1wAEDIAUBwACB1ZAEBEBCCDA+BDALB1ZAEEBBEAUBWFBA1wACABDIAHB",
      "LB+A1zAMA1SADA1XABCFCBDHBLBzA1wACAGAFBUByB1ZBEDIAUBzA2IAHCBA2wACGLI3CACIJABG2JBxABABA1XNBEBB",
      "FKB1DJA3GDBFBBCBZBECQDNACBGAPA2+AjACtSCzB+B+B2ABBGIACKDAFA1NE1TA2BB1CA3WCEBJAGC6xBCA1wABGBAB",
      "ACHGJCA1HAI1NCLUD1QABEBAFA1IIMB1ADCBBC1YABBDABC1wHCB2AF2SCBMBGEAGADB1S1+NA1C3EdzABCLCNCNCNBM",
      "EIBKACACE1REBJBANAQM1T1A2sLB3RC3zAPA3A-1PAeVA1EDDEFA2zF2zCroWA17CF8OA3CDBJBAyD2QBO1B2OAXC3GD",
      "DBIADAEAZBFA4XBwRNA1GHZK1OC1QACDCBRAVB2CFCBCBMAIA1DALA1TABCCBFBBAxAOBFBBA3EEJC3ZACAEAjpQA4TQ",
      "hzPDAMP1CACA5JAHAGALA1DABA1PA1NB2DAVCgBA7CA4VE10FFB1JBIiGCBBFD1ICEA5FBhzD1GAwEBA9xBYA1UF2GK1",
      "RD3xA1WO1JACBKC1RDCBCAEAKA1SC1EEBH1+AMB1UIKDCA2-CCABBGACA4zADHVB1ZBDA1FGDE2GFNABABAOB2VHCCBA",
      "XA2UFBAEBBB7ODGBBBxB2VHCABB3KABACFBA3FABACDBE8DIBB8ABBAEA4QDCBEA1AJ1IFCDIAJFCC1OMBB6GABCBA6J",
      "GBFBA2SVCGBBBB3wFDABBBGBA2IBDABA2BA8ZBLB1UEFABAXA56VQGOb6ILDC2eAE1xGJDfyC1IBfCA1-Q2ABBBNBfvy",
      "DBGBB34+BBD4iy1NCWhACJPCG+D4UC1tx1WE1RIAOAWEBO1aQGBQCGBBBEF1z1BA5ANbQA1zDfxE7+B7TACAHBFAJAeQ",
      "G3NH2lPEo30BA+2-4A7P"]⟩,
  ⟨["cased"], String.join [
      "2BZGZ1PAKAEAFWB+B6CBDE6PC1CHB+E3AA1KDCBCDBAGABCBABTB2SB4KI5FB1FJ1I2oX1FBAFAC1KBDlA2VCF24CKF1",
      "KCC2A5-2A8VCFC1FCFCHBABABAB+C1UBGBADCBGDDCFEMFCBG3UANAQM3FAEACJBADEGABABABDBFEACDFEEAR-DBpR1",
      "T1oW7EGDDBM1FBAFAu8S1NSz4E3FDDB2MUFBCpV1KBNG2PjqAGME10JZGZ15F2P3A1DE1D3UKBOBGBBBKBOBGBBeDACC",
      "B1JBI16F1SN1S2zVKV2ow1-lbA1-1AYCYp9M2UB2GBBCACBCDBLBABGB2ABDCHBGBxBDBEBADGBaTCYBYB+BYB+BYB+B",
      "YB+BYBH1pUJBTGF8F1z24S2D1vMZGZGZ"]⟩,
  ⟨["cwcf", "changeswhencasefolded"], String.join [
      "2BZ2wAKWBH1AABABABABABABABABABABABABABABABABABABABABABABABABABABABACABABABABABABABABBBABABAB",
      "ABABABABABABABABABABABABABABABABABABABBBABABABBBABBBCCDBBBCDBBBBABABBBACABBBCBABBDAHBBBBBBAB",
      "ABABABABABABACABABABABABABABABACBBABCBABABABABABABABABABABABABABABABABABABABABABABABABABABAB",
      "ABAHBBBCABDBABABABA7WA1KABADAIAGABCBABBBQBIWAMCDBBABABABABABABABABABABABABBCBBABBC1S1QABABAB",
      "ABABABABABABABABABABABABABAJABABABABABABABABABABABABABABABABABABABABABABABABABABABBBABABABAB",
      "ABACABABABABABABABABABABABABABABABABABABABABABABABABABABABABABABABABABABABABABABABABABABABAB",
      "ABABABAC1F1QA2oY1FBAFApKF24CJG1KCCaAABABABABABABABABABABABABABABABABABABABABABABABABABABABAB",
      "ABABABABABABABABABABABABABABABABABABABABABABABABABABABABABABABABABABABABABABABABABABABABABAB",
      "AFBCABABABABABABABABABABABABABABABABABABABABABABABABABABABABABABABABABABABABABABABABABABABAB",
      "ABABABABAJHIFKHIHIFLABABABAIHQ1PCCCFFCCFLDMEFCCF9JADBGA1NPTApSZ1pQ1P1QABCCABABABDBACAICBABAB",
      "ABABABABABABABABABABABABABABABABABABABABABABABABABABABABABABABABABABABABABABABABABABABABABAB",
      "AIABAEAuaNABABABABABABABABABABABABABABABABABABABABABABATABABABABABABABABABABABABABA4HABABABA",
      "BABABADABABABABABABABABABABABABABABABABABABABABABABABABABABABABABABAKABABBBABABABAEABACABADA",
      "BABABABABABABABABABEBEBABABABABABABABDBABBBABABABABABABABAYArw2PjqAGME10JZ16F1H4I1D4yKBOBGBB",
      "1nK1S4zV2pw-lcA-2AYuiH1B"]⟩,
  ⟨["cwcm", "changeswhencasemapped"], String.join [
      "2BZGZ1wAKWB+B1-B2TBxCNCBBAE2yBRGwBBBABBDBBDBECABBCAHACABBDFFAKB5GA1KDCBDCBAGABCBABTB1OD1ABEB",
      "4EI5FB1FK1G2oY1FBAFAC1KCClA2VCF24CKF1KCC5ZADAQA3R4xCAB3VCFC1FCFCHBABABAB+C1UBGBADCBGDDCFEMFC",
      "BG9JADBGAxAR-DBpR1T1oW3QBBBBH3FHDDBM1FBAFAu8S1NSx4GNC1zJODCCEBYB1MYBqyAy2PjqAGME10JZGZ15F2P3",
      "A1DE1D3UKBOBGBBBKBOBGBB1mD1SN1S2zVKV2ow1-lbA1-1AYCYuhM2D"]⟩,
  ⟨["cwl", "changeswhenlowercased"], String.join [
      "2BZ3FWBG1BABABABABABABABABABABABABABABABABABABABABABABABABABABABACABABABABABABABACABABABABAB",
      "ABABABABABABABABABABABABABABABABABABBBABADBBABBBCCDBBBCDBBBBABABBBACABBBCBABBDAHBBBBBBABABAB",
      "ABABABABACABABABABABABABABACBBABCBABABABABABABABABABABABABABABABABABABABABABABABABABABABABAH",
      "BBBCABDBABABABA9BABADAIAGABCBABBBQBI1DAIABABABABABABABABABABABAFACABBC1S1QABABABABABABABABAB",
      "ABABABABABABABAJABABABABABABABABABABABABABABABABABABABABABABABABABABABBBABABABABABACABABABAB",
      "ABABABABABABABABABABABABABABABABABABABABABABABABABABABABABABABABABABABABABABABABABABABAC1F2q",
      "J1FBAFAmS2V24TAG1KCCaAABABABABABABABABABABABABABABABABABABABABABABABABABABABABABABABABABABAB",
      "ABABABABABABABABABABABABABABABABABABABABABABABABABABABABABABABABABABABABABABABAJABABABABABAB",
      "ABABABABABABABABABABABABABABABABABABABABABABABABABABABABABABABABABABABABABABABABABABAJHIFKHI",
      "HIFLABABABAIHYHIHIHIELELDMELE9JADBGA1NPTApSZ1pQ1P1QABCCABABABDBACAICBABABABABABABABABABABABA",
      "BABABABABABABABABABABABABABABABABABABABABABABABABABABABABABABABABABABABABAIABAEAuaNABABABABA",
      "BABABABABABABABABABABABABABABABABABATABABABABABABABABABABABABABA4HABABABABABABADABABABABABAB",
      "ABABABABABABABABABABABABABABABABABABABABABABABABAKABABBBABABABAEABACABADABABABABABABABABABAB",
      "EBEBABABABABABABABDBABBBABABABABABABABAYAlpLZ16F1H4I1D4yKBOBGBB1nK1S4zV2pw-lcA-2AYuiH1B"]⟩,
  ⟨["cwt", "changeswhentitlecased"], String.join [
      "3BZ1wA1JXBHBABABABABABABABABABABABABABABABABABABABABABABABABABABABACABABABABABABABBBABABABAB",
      "ABABABABABABABABABABABABABABABABABABACABABCCABACADAFACADCCACABABACAEACADABACADABAEABBBBBABAB",
      "ABABABABABABBBABABABABABABABABCBABADABABABABABABABABABABABABABABABABABABABADABABABABABABABAB",
      "AIACBBAEABABABABFBBBABBDBBDBECABBCAHACABBDFFAKB5GA1LABADADCSAx1CBBDCBABABABABABABABABABABABE",
      "BACACA1U1PBABABABABABABABABABABABABABABABABAJABABABABABABABABABABABABABABABABABABABABABABABA",
      "BABABACABABABABABABBBABABABABABABABABABABABABABABABABABABABABABABABABABABABABABABABABABABABA",
      "BABABABABABABABABABABABA1R1G3jQF24CIBA7OADAQA3SABABABABABABABABABABABABABABABABABABABABABABA",
      "BABABABABABABABABABABABABABABABABABABABABABABABABABABABABABABABABABABABABABABABABABABABABABA",
      "BABABABABABGFABABABABABABABABABABABABABABABABABABABABABABABABABABABABABABABABABABABABABABABA",
      "BABABABABABABABIIFKHIHIFKHIHINCHIHIHIEBBGADCBBIDCBIHKCBBaWA1BPEAqLZ1qG1PBADBBABABAGACAKABABA",
      "BABABABABABABABABABABABABABABABABABABABABABABABABABABABABABABABABABABABABABABABABABABABABABA",
      "BAIABAEAM1FBAFAu8TABABABABABABABABABABABABABABABABABABABABABABATABABABABABABABABABABABABABA4",
      "HABABABABABABADABABABABABABABABABABABABABABABABABABABABABABABABABABABABABABAKABACABABABABAEA",
      "EABBCABABABABABABABABABALABABABABABABABAEABACABABABABABABABAwAqyAy2PjqAGME11JZ16N1H4I1D4xKBO",
      "BGBB1oD1S3zV2pw-lcA-1xYuiO1B"]⟩,
  ⟨["cwu", "changeswhenuppercased"], String.join [
      "3BZ1wA1JXBHBABABABABABABABABABABABABABABABABABABABABABABABABABABABACABABABABABABABBBABABABAB",
      "ABABABABABABABABABABABABABABABABABABACABABCCABACADAFACADCCACABABACAEACADABACADABAFBBBBBBABAB",
      "ABABABABABBBABABABABABABABABBBBBADABABABABABABABABABABABABABABABABABABABADABABABABABABABABAI",
      "ACBBAEABABABABFBBBABBDBBDBECABBCAHACABBDFFAKB5GA1LABADADCSAx1CBBDCBABABABABABABABABABABABEBA",
      "CACA1U1PBABABABABABABABABABABABABABABABABAJABABABABABABABABABABABABABABABABABABABABABABABABA",
      "BABACABABABABABABBBABABABABABABABABABABABABABABABABABABABABABABABABABABABABABABABABABABABABA",
      "BABABABABABABABABABABA1R1G2qI1KCCnYF24CIBA7OADAQA3SABABABABABABABABABABABABABABABABABABABABA",
      "BABABABABABABABABABABABABABABABABABABABABABABABABABABABABABABABABABABABABABABABABABABABABABA",
      "BABABABABABABABGFABABABABABABABABABABABABABABABABABABABABABABABABABABABABABABABABABABABABABA",
      "BABABABABABABABABABIIFKHIHIFKHIHINC1UBBEABADCBBEADDCBIHKCBBEAaRA1BPEAqLZ1qG1PBADBBABABAGACAK",
      "ABABABABABABABABABABABABABABABABABABABABABABABABABABABABABABABABABABABABABABABABABABABABABAB",
      "ABABABAIABAEAM1FBAFAu8TABABABABABABABABABABABABABABABABABABABABABABATABABABABABABABABABABABA",
      "BABA4HABABABABABABADABABABABABABABABABABABABABABABABABABABABABABABABABABABABABABAKABACABABAB",
      "ABAEAEABBCABABABABABABABABABALABABABABABABABAEABACABABABABABABABAwAqyAy2PjqAGME11JZ16N1H4I1D",
      "4xKBOBGBB1oD1S3zV2pw-lcA-1xYuiO1B"]⟩,
  ⟨["dash"], "1NA1ayA1TA3iBA10FA20JF1zA1HAPAcGA30EACA-BEAyAd+ATA3PA1jcQB1FAKA5JA3jAA9+A"⟩,
  ⟨["di", "defaultignorablecodepoint"], "5NAlBAmMA2qCB1iTB2VE1vxEwE1RP47UA1j4xP7PA5AA2PI1f5HD56PHobkF3v-"⟩,
  ⟨["dep", "deprecated"], "aJA19JA28DABA21JB26FFlZBrn6WA"⟩,
  ⟨["dia", "diacritic"], String.join [
      "2+ABA2HAGAEACBfX4+BHFFRBEAJB7zE6RA1X1MBABBBBBA4DHEB4GBEBDC2Dw2xK1wK1CB3+H1JJQx1zAQADDyA2KAQA",
      "3OAQA3OAQA1PC1yAQAHA3XA3OAQA3OAQA3NBQA3yA3PAMFBA3LANE2LBxABABAEB2CCBB1+A3QABB1IBEEZGBAKBmBCt",
      "UB+A4UKJAaxC9EAUHCA1QOCKDOCL2IAPA1GI1WB1wALB2CB2AF2SYEAGACC1S1+1Q1DFL1FKdzABCLCNCNCNB37QC9zA",
      "fwF3JD2-AtbSAMBBAyB2SBO1B3GC3GAGBMA1FA4XAxR1ZD1EA2-AMA1EA4VC2BD1TA3EEJC4ABjpQAoBP8OABA1PA1NB",
      "2DAnyA14-FB1JBIjzCEA5FBhxF1GAwEcMACC2GK1RD6AA1JA2IB3YB1+A2MAJC3IB5SB2QBQAYGDE2ZCBBNB2-ADA3xB",
      "7xB3+A3WB3TA8NB8CBEA4yA2TASA2RAdFA8CABB2RA2BAbHBXA57MOb6ZA2eAE1xGhUBhCQ2QBfv+DBGBB7oB1NCWhAC",
      "DFIHCG+D3kC1z6CGbXA1zDn+BnAG3NCBC"]⟩,
  ⟨["emoji"], String.join [
      "1DAGAFJ3PAEA7sNAMA6YAWA2wFPBbPBMA5GAZKEC6HA7HBKAJA1wDBEJACACBCAEACABBCADADBICFABAFLLBCABBBAS",
      "ACBSFBABBDBFACBEBLBFBCAFBBABBUBFFBDCAEACACFBACABABAGADAGAKBPACAEABAECBALB1QCJAOAOAbUBePCTB1T",
      "AEA16wAMAiZABA3fbKA6KA5ABMBOACJ2LZBBXAUACIVB5O1BC3PCBBCC2SCCB8GB1+LFBXHBCHMACDCAEBNBCAIBJAFC",
      "MCICCABAEAGADAG2V1Q2FFHCDDJDABBDACJ7DLEA8x1OBJB5Y3QMDKD1YBAEPCLEJ"]⟩,
  ⟨["ecomp", "emojicomponent"], "1DAGAFJ7uTA6VA1n9LA1suWZfxE1dQDo1jM2-"⟩,
  ⟨["emod", "emojimodifier"], "3svxE"⟩,
  ⟨["ebase", "emojimodifierbase"], String.join [
      "9gzA6xAQD3j3XA1yCCACC3VBCKVSDAECBCHABAYA6JBEAVAEB5OCDE2TAQCJALAh-ACAIHGAJJCC1YA1zBBBBARCBM7F",
      "C1KI"]⟩,
  ⟨["epres", "emojipresentation"], String.join [
      "8owB6NDDACAgJBVB1SL1LATANAIBRBFBIAFAVAHBBAEACAHAEByA1DABAECBA1zCYAOAqxB1TAEA3h5OA6KA5+ACJ2LZ",
      "BAYAUACEBCVB5O1AMIB2FBVM1KEEMQDAD2GBAB5wC1+NDBXSAwBNA2W2U1Q2FGADCCDDDLBHI7DLEA8x1OBJB5Y3QMDK",
      "D1YBAEPCLEJ"]⟩,
  ⟨["extpict", "extendedpictographic"], String.join [
      "5JAEA7sNAMA6YAWA2wFPBbPBMA5GAZKEC6HA7HBKAJA1wDBEJACACBCAEACABBCADADBICFABAFLLBCABBBASACBSFBA",
      "BBDBFACBEBLBFBCAFBBABBUBFFBDCAEACACFBACABABAGADAGAKBPACAEABAECBALB1QCJAOAOAbUBePCTB1TAEA16wA",
      "MAiZABA3fbKA1HD3ELPBPAOB1FJ3QBMBOACJT1XxOKAUACIBDJWG5xC3PCBBCC2SCCBDF7zB1+LFBXHBCHMACDCAEBNB",
      "CAIBJAFCMCICCABAEAGADAG2V1Q2FFHCQDABFCM6w1FMD1YHKF1IH+BMDCNJ1GM1OBJB5Y2YHO4R8Avz"]⟩,
  ⟨["ext", "extender"], String.join [
      "5XAgYBrOAdZAjWA4JA2ZAnQA3-A2aDA1YAjDAcOA2EA4sJA1LE3HB2zCroWA1fWAuCAWA4JA3MAVBl3xA20QB1eLAxAE",
      "A16HA9FA3UBfSC16PAqAAjbIB14yBBAOBsaIB15RAqUC"]⟩,
  ⟨["grbase", "graphemebase"], String.join [
      "1A2+1BMBiR3QHCFEGBABTB6-H5FB1FC1RCC1OABACACAJwEFRJLAB1NVPB3EIAGBCAE-CABzz2YLAO1KJGDXEAJADAHO",
      "BYFABKF-Q1J1Z1WBABDIDBCHJCyBBBHCBCVBGBADDDABBGBCBBANBBCEXFABFEBCVBGBBBBBBECYDBAHJCCBAMABIBCB",
      "VBGBBBEDDIABBDAPBELHAIBBHCBCVBGBBBEDACAGBCBPBBCERLABFDCBDDBBABBDBDCDLFABBDCBCDAVUGCBHBCBWBPD",
      "ADDTCBBCBEJHJBKBCBWBJBEDBCABBXCBBEJBCOKBCB1ICABBFCBCBBECBJEZCBBRDXBIBACGJBGGHJCCM1PBBLHIM1FB",
      "BABEBXBABJBBJACEBAJJCD1AXCwBABABNB1DSAFACE1RHBFBM1F1MEAGACBCYCDDPEMBBCFBOB1HBAFACbYBDCGBABDC",
      "1IBDC1ABDCGBABDCOB1YBDC2CFyDZG2VCFCkyD2YHRNSDBJROMBCP1TCAHHBBLIDJGJGKFJG2YHEC1BBAF2FK+EDCCEB",
      "BFHAD1JCEL1LEZGKD1YCBD1XBAJABBIFNJGJGN2W1PKDDHByJLC-EBG1XBACCBAN1PIBFOD1zF1KCKLANAHDBFBCCAF5",
      "-2A8VCFC1FCFCHBABABAB+C1UBOBNCFBSCCBIBKFXH1QQBCwBMD1B1+4LEkZWKV1oTCbYDBF1MBAFAC1XHBPWJGBGBGB",
      "GBGBGBGBG1B2z1CZB2YM6Vw1ZGPB2VE3EF1KB2zB2VJ1PBsjMD1WJaxU1OEAK-C2PCFI6yUQBCBDBYCEEJG1XI2DKLYM",
      "B1FIYLAMzG1PBBEBCBBMBKEGBYB1IGBCBLCBHBACJC-B1SBADBCECABAYQCHLFCFCFJGBGB1xE3UBBBDDJGatDMWE1Q8",
      "8EbNC3J1GGMEFABXBEBABBBBBkJ1APQJW1CBSBDEEB4GE4yC+DFCFCFCCDGBGNBCLBZBSBBBOCN1C3wFCE1MD2XBMDA1",
      "P1M4DyD1QQwE1DJzF1FKzB1EEN1K4zCJG1DE1DE1HI1TLLBOBGBBBKBOBGBBD1TM9WJVKHYFB1JBI2FFCAB1LBBDACWB",
      "2HII1QSBBF1ADwFw1G1XETC1OPDBCByKIHIH1-1A1EGLJ1VDyCwFZHDMG2Q2I1X1SN1SH1JMJG1FIXIB6Q+B1JDACBQF",
      "II1H1HIVLIWRED1GxUWJAB1VPGEzBBCAM1QEBCBBDOYHJJ1DFAJRI1CBCL1TJABHEBBPBTLRBxDBEFBB1-GBABDBOBKG",
      "1OBCNJIBBHCBCVBGBBBEDABABDCBCBDAMGyJBACAB1FBABBPABBDABCBB1H1XIBDABUBABC+1PBBGABBBACACDIJ5G1O",
      "BBGDCACw1E1SIBBACDLJGMT1KBABBIBGJGTywDABBEAJW5Z1OJACA3E2SMHCACHBBBXBEBBGDBCJJ2GHC1JIDBDxAK1H",
      "GBEHJAGBD1NNACIN2IHJ2XADABA2Y1BOJGIB1FOABFKyD-ZAHACA2LGBBB1FVAJJGFBBB1EEBBABAHJG1LEJ7WSCDJOB",
      "1DIBDW2WAP1RNsw3G3OBEL6D2iM3CN11PRFZ3swFiG6lZzMCDJ1mGhYH+BJE2QBJGzHAK1PHOKJBGBUFSdQ1Z6G2wFYC",
      "Y1M2KF1XLM2ADOEJ76V1J-3B3S8fzDBGBBB9CPAzCCAODIcL28E3KFMDIHJCACA3rA7yDdTGWPQ2-3T1y7VK1GC1xFCW",
      "BHzE1yV2BDA3wTMTM2WJY4H2UB2GBBCACBCDBLBABGB2ABDCHBGBxBDBEBADGBaTC9DChR1XD1SHBNBG13U+GF8F1z4S",
      "1MKGCJEBaAzS1LEJFAeQxEJ6WzCKEA6A+BCBBBGCEJB7AGBDBBBOB6ECI1Q2DHAEJEBoR2D2M1y6CDBwBBBACABJBDBA",
      "BAGAEABABABCBBBACABABABABABBBACDBGBDBDBABJBQFCBEBQ1UB8O1LE3DMOCOBOB1EK5N1YyN1LEIHBOF4wuYDQDM",
      "D6ZGLEAPLE1XIJG1HIzCLEBOI1HaXINCMDKD1YBAEPCLEJH4SB3G10F19m-1A48zC5kNC79QPjN2dCgz1fC4qKF89J"]⟩,
  ⟨["grext", "graphemeextend"], String.join [
      "oA3P8TG8H1MBABBBBBA2IK1QUQA3FGCFCBBD1DA+w2xK1wIJAYDBIBCBE1LC1xI1KXB-1XABAEHEADGKBzA1wABACDIA",
      "JAKBwACB1ZAEBEBCCDA+BDALB1ZAEEBBEAUBWFBA1wABBBDIAHCKB+A1xABAMAJA1IADA1XABCFCBDHBLBzA1wACBBAD",
      "CBDHBLByB1ZBBACDIAJAKBzA2IAEACCBAIA2RACGMH3CACILG2JBxABABA1XNBEBBFKB1DJA3GDBFBBCBZBECQDNACBG",
      "APAl-CtSDyCzB+B2ABBGIACKJA1NCBA3VB1CA3WCEBJAGC6xBCA1wABGBABACHGJCA1Q1NCLUD1QJEC1GIMB1ADCF1YA",
      "BBDABE1YHCB4YCBMBGEAGADB6G1-gMA6D1A2v+C4NA3A-hKF3JBteUDBJ1AB2QB8QADAEAZBFA4XBwRNA1GHZKBA1MC1",
      "QACDCBCA1EA2DFCBCBMAIA1PA1TABCCBFBBA1KBIA7OACAEAjpQAnBPQPbOBizA7CA4VE1kGCBBFD1ICEA5FBhzD2BE9",
      "zB2NF2GK1RD3xA1WO1JACBKC1RDCBHA1zC1EEBH1+AMB1UIBAIDCA2-CCDGACA4zADHVB1ZBBABAMAJAOGDE2DACFBAC",
      "ABCECBAOB2VHCCBAXA2RACFBACABBBB7LACDGBBBxB2VHCABB3KABACH3FABACDBE8DIBB7VAKDEA4QDCBEA1AJ1IFCD",
      "IAJFCC1OMBB6GABCBA6JGBFBA2SVCGBBBB3wFDABBBGBA2IBDABAaxBLB1UEFCXA57FAGOb6ILDC2eAE1xG10YA1-D2R",
      "ALBj5LB4jB1NCWg+EDFIHCG+D4UC1tx1WE1RIAOAWEBO1aQGBQCGBBBE3EA5AGbXA1zDfyD7+B7TACAHBFAewG3NGo5m",
      "V2-4A7P"]⟩,
  ⟨["hex", "hexdigit"], "1QJHFwF1vlJJHFwF"⟩,
  ⟨["hyphen"], "1NA3-A16yA4jxA20JB3gFAnDA1jbHA5JA2XA"⟩,
  ⟨["idsb", "idsbinaryoperator"], "bvQBCJfRA"⟩,
  ⟨["idst", "idstrinaryoperator"], "bvSB"⟩,
  ⟨["idc", "idcontinue"], String.join [
      "1QJHZEABZ1PAKABACAFWB+BeJELOEHABAR3UBBCDBAGEBABTB2SB4KBEC5FB1FCAG1II1MBABBBBBAIwEDzKF2JE3FBH",
      "CJBSCAQ1wC3EO1VEACAC1NSxEKFXBGH2KB4ACJBSBHCBCVBGBADDCICBCDIAEBBECLKABACCBFEBCVBGBBBBBBCABEEB",
      "CCDAHDBAHPLCBIBCBVBGBBBECJBCBCCAPDCJJGBCBHCBCVBGBBBECICBCCHCEBBECJBAQBBFDCBDDBBABBDBDCDLEEDC",
      "BDCAGAOJQMBCBWBPCIBCBDHBBCBBCDCJQDBHBCBWBJBECIBCBDHBFCBDCJBCMMBCB1SBCBEFDHECJKFBCBRDXBIBACGD",
      "AEFBABHGJCBN1ZFOBJ1HBBABEBXBABWCEBABGBJCD1AAXBGJLABABAEJB1DETBRB1DJA1Z2JG2NC1FBAFAC1KBaMBDCG",
      "BABDC1IBDC1ABDCGBABDCOB1YBDC2CCCJIOPQ2VCFDjLCQBZF2KDKHVJVLTMMBCBBM2TDAEBCJ1BCBKG2YH1KF2FK+BL",
      "ELK1HCEL1LEZGK1FxE1+ByCKGJNAINB+CLU2MDJRIM3TM1XIJD1QCKF1KCCQCB1GFgVCFC1FCFCHBABABAB+C1UBGBAD",
      "CBGDDCFEMFCBGPB1RBTAyANAQM1TMEADLRAEACJBACFGABABABPCDFEEAR1I2jX7EGIM1FBAFAC1XHAPXJGBGBGBGBGB",
      "GBGBGB-gFCZOBECEE2VCGB2+F1KB2zR-1QPgA6d-2AlkM2D1NC8MDxU1PEJB3S1FIC3GC2RU1WEAT1TM2FKJGXDAB1QC",
      "1DMyD2AOKG+B1WJNCJGWD2IYCCPCEKFCFCFJGBGB1KBNG3wBBCJGatDMWE1Q88EbNC3J1GGMEFLBMBEBABBBBB3L1BbK",
      "S1-C1V1ILEPQPDBYC1AEB4GTJHZEABZK2ZDFCFCFCC1DLBZBSBBBOCN1C3w2F1U4IA4CyD1QPA--NzF1KFzC1DEHBE1K",
      "4zCJG1DE1DE1HI1TMKBOBGBBBKBOBGBBD1TM9WJVKHYFB1JBI2FFCAB1LBBDACWKWJ+2BSBBKVKZGZ1G1XGB2ADBBFHB",
      "CByCCEA1AyDy1DHBzZ1VKVKSNR3O2I1X1SN1SN1HIJG1FDEBW7w1JBBDBQF1S1CKAI1A-V1KUxWJ2G-PJ1xHANYHJG1U",
      "BJEDI1DCAJ2EEDBMBA1DRB1EGD1+GBABDBOBJH1wFJGDBHCBCVBGBBBEBJCBCCCAGAFGCGDELJBACAB1FBJBACABDBHN",
      "Bz2KFJED+2FBAIJ5G1VCIXF1C2ADALJ1G1YHJGTywCOEJGG5Z1w3F2JVHCACHBBBzBBCIMJ2GHC1NCHBBx1+IAI2JDAS",
      "2I3HH2Y1APJGIB1MBIPJYzCVBN2JGBBB1LDABBBIIJGFBBB1EBBBFHJG1LEJ7WWJQB1IDENK2VA2PsZ3G3OR6D2iM3AP",
      "11PQVK3swFiG6lZ1Z1mGhYH+BJG2OBJGzCEL1WJDMJJUFSdQ1MDJ6G1-1AYCY1M2KE1YHQ2ABBBLGJ76V1J-3B3S8fzD",
      "BGBBB9CPAzCCAODIcL28E3KFMDIHJDB42RJgG1NCWg+EDFIHCG+D4UCdx2UB2GBBCACBCDBLBABGB2ABDCHBGBxBDBEB",
      "ADGBaTCYBYB+BYB+BYB+BYB+BYBHC1RgA1WE1RIAOAWEBO12Q+GF6VGBQCGBBBEF1z1BA3Q1MDNCJEAaB+R1ZeW1J6W1",
      "K6F+BVIB7AGBDBBBOB6ELG1J2LEJ15GDBwBBBACABJBDBABAGAEABABABCBBBACABABABABABBBACDBGBDBDBABJBQFC",
      "BEBQ39UJ10G19m-1A48zC5kNC79QPjN2dCgz1fC4qKF89Jlj4G7P"]⟩,
  ⟨["ids", "idstart"], String.join [
      "2BZGZ1PAKAEAFWB+BeJELOEHABA4BEBBCDBAGABCBABTB2SB4KI5FB1FCAG1I2HwED1N1K1DBB3CBAPBHBKCCAQABzz2",
      "YLAY1AJBEAFVEAJADAXYHKFXBGQ1J1w1VDASAHJPPEHCBCVBGBADDDAQANBBCOBKAIFEBCVBGBBBBBB-DBATCQIBCBVB",
      "GBBBEDASAPBXALHCBCVBGBBBEDA+BBCPARABFDCBDDBBABBDBDCDLWA1UHBCBWBPDAwCBBCB+AEHBCBWBJBEDA+CBBPB",
      "RIBCB1ICAQAFCICYFFRDXBIBACG1w1PBBMG1wBBABEBXBABJBBJACEBAVD1AA1-HB1DxE3T1KUAQFEDDADBHCEMMAR1F",
      "BAFAC1KBaMBDCGBABDC1IBDC1ABDCGBABDCOB1YBDC2C1FPQ2VCFDjLCQBZF2KDKHRNSOROMBCP1T1DAEA2D2YH1IBAF",
      "2FK+1RzCEL1LEZ1WWJ1U2SA2z1ORH1WzNBK1Lw1D1JCK1DCKF1KCC1JDBFBBDAF5-2A8VCFC1FCFCHBABABAB+C1UBGB",
      "ADCBGDDCFEMFCBG3UANAQM3FAEACJBACFGABABABPCDFEEAR1I2jX7EGDDBM1FBAFAC1XHAQWJGBGBGBGBGBGBGBGhGC",
      "ZIHECEE2VEEB2ZBDF1KB2zR-1QPgA6d-2AlkM2D1NC8MDPKBU1OQ+C2P1HIC3GC2RUQBCBDBWz1TO1R1+FDABBLxKWZy",
      "H1OyAQEBJKEB1IXCBHUWDAD1RBADBCECABAYCCKHCMFCFCFJGBGB1KBNG3SzatDMWE1Q88EbNC3J1GGMEFABJBMBEBAB",
      "BBBB3L1BbKS1-C1V1IL3UEB4G1EZGZL2YDFCFCFCC1DLBZBSBBBOCN1C3w2F1U8LyD1Q1P-NzF1FKzC1DEHBE1K4zS1D",
      "E1DE1HI1TMKBOBGBBBKBOBGBBD1TM9WJVKHYFB1JBI2FFCAB1LBBDACWKWJ+2BSBBKVKZGZ1G1XGB2AAPDBCBy1KyDy1",
      "DHBxx1VKVKSNR3O2I1X1SN1SN1D1GxJW7w1JGBQF1YyKAIV1KR1OUxWM1U1ZBCAN1M1AYw1DzACAI1CDAM1PODVABA1D",
      "RBYTB1-GBABDBOBJH1O1GHCBCVBGBBBEDASAME+JBACAB1FBAZABA1M1USDUC+1PUBBA5Y1O1JD1E1PUA1x1KNA2Hw1F",
      "G5Z1L3U1--HCACHBBBXPABA2+HC1GQABAyAK1HHAVAL1NTAS2I6H1A-IB1ERA1Rz3QGBBB1FVAZFBBB-OAX1L8ESPABM",
      "B1B3yA2PsZ3G3OR6D2iM3AP11PRFZ3swFiG6lZz1nChYH+R2ORzS1PQD-UFSdQ1M6T1-1AYCY1M2KFA2CM2ABBAOEJ76",
      "V1J-3B3S8fzDBGBBB9CPAzCCAODIcL28E3KFMDIHJ5rG2UB2GBBCACBCDBLBABGB2ABDCHBGBxBDBEBADGBaTCYBYB+B",
      "YB+BYB+BYB+BYBH1pU+GF8F1z4S1MKGQAaBzS1LfEx7EzCA6P+BCBBBGCEJB7AGBDBBBOB6E1x2DHA15UDBwBBBACABJ",
      "BDBABAGAEABABABCBBBACABABABABABBBACDBGBDBDBABJBQFCBEBQ4aE19m-1A48zC5kNC79QPjN2dCgz1fC4qKF89J"]⟩,
  ⟨["ideo", "ideographic"], "c0GBZIOCuF6d-2Akf-m8AbNC3Jt8KANEJ76V1J-3B3S8rzcLj8E19m-1A48zC5kNC79QPjN2dCgz1fC4qKF89J"⟩,
  ⟨["joinc", "joincontrol"], "80MB"⟩,
  ⟨["loe", "logicalorderexception"], "3iAE3xE2nQCCA147wBCABB"⟩,
  ⟨["lower", "lowercase"], String.join [
      "3BZ1PAKAEA1EXBHBABABABABABABABABABABABABABABABABABABABABABABABABABABABBBABABABABABABABBBABAB",
      "ABABABABABABABABABABABABABABABABABABABABACABABCCABACADBEACADCCACABABACABBBACADABACBCCGACACAB",
      "ABABABABABABABBBABABABABABABABABBCABADABABABABABABABABABABABABABABABABABABABABABABABABABABAB",
      "ABABGCACBBAEABABABAB2EC1CHB+E3AA1LABADACDSAx1CBBDCBABABABABABABABABABABABEBACACB1T1PBABABABA",
      "BABABABABABABABABABABABABAJABABABABABABABABABABABABABABABABABABABABABABABABABABACABABABABABA",
      "BBBABABABABABABABABABABABABABABABABABABABABABABABABABABABABABABABABABABABABABABABABABABABABA",
      "BABABA1Q1I2qH1KBDnYF24CIBA3V5-2BABABABABABABABABABABABABABABABABABABABABABABABABABABABABABAB",
      "ABABABABABABABABABABABABABABABABABABABABABABABABABABABABABABABABABABABABABABABABABABABABIBAB",
      "ABABABABABABABABABABABABABABABABABABABABABABABABABABABABABABABABABABABABABABABABABABABABABAB",
      "ABIIFKHIHIFKHIHINCHIHIHIEBBGADCBBIDCBIHKCBB3ZANAQM3NADBDAxAEAEACBIDEA1BPEAqLZ1qG1PBADBBABABA",
      "EABBBHDABABABABABABABABABABABABABABABABABABABABABABABABABABABABABABABABABABABABABABABABABABA",
      "BABABABABABABBHABAEAM1FBAFAu8TABABABABABABABABABABABABABABABABABABABABABABATABABABABABABABAB",
      "ABABABABABC4FABABABABABABCBABABABABABABABABABABABABABABABABABABABABABABABABABABABABABABJBABA",
      "CABABABABAEABACABCBABABABABABABABABABAFAFABABABABABABABAEABACABABABABABABABAVDBABCpV1KBNG2Pj",
      "qAGME11JZ16N1H4I1D4xKBOBGBBeDACCB1JBI18F1S3zV2pw-lcA-1xYpaGZwGBRwZwDBABGBKwZwZwZwZwZwZwZwZwx",
      "yYBFwYBFwYBFwYBFwYBFBA1pUJBTGF8F1z25U1B"]⟩,
  ⟨["math"], String.join [
      "1LAQC-AzABA1NAEA1FA-AmYCCAwBCCgPC6gNAxCLADANAODVELE2BMEADBEESAEACJBACFGADBCBBCBFDNBA2EXBFBBE",
      "BE-BAGBO8LIDUB2wA+wBAYALGdzBMJEFEBCBDEOABACFLHFB1ZABAzDJCaQ1-8Af-1QUCF1juyApXFBA5CAQCzABAzAB",
      "A4DAGD3dBB1gbAA18P2UB2GBBCACBCDBLBABGB2ABDCHBGBxBDBEBADGBaTC9DC1R5gADBwBBBACABJBDBABAGAEABAB",
      "ABCBBBACABABABABABBBACDBGBDBDBABJBQFCBEBQ1UB2e+I"]⟩,
  ⟨["nchar", "noncharactercodepoint"], "1veQ-gOB1vv+B1vv+B1vv+B1vv+B1vv+B1vv+B1vv+B1vv+B1vv+B1vv+B1vv+B1vv+B1vv+B1vv+B1vv+B1vv+B"⟩,
  ⟨["patsyn", "patternsyntax"], "1BOKGwDBAwD1CGBABBBABBEAEADAXA-A7oYXIOCSBJ9RmP5AjV+13LgA3-cBCEYPA1j8NB8FB"⟩,
  ⟨["patws", "patternwhitespace"], "JESA3EA7sIBYB"⟩,
  ⟨["pcm", "prependedconcatenationmark"], "1gAF6XA1RAcAB2QA21uwAPA"⟩,
  ⟨["qmark", "quotationmark"], "1CAEA4DAPA7qyHZB3gHAeJDNC1jhBD5zAEA2wB"⟩,
  ⟨["radical"], "bkAZB2YM6V"⟩,
  ⟨["ri", "regionalindicator"], "3sfGZ"⟩,
  ⟨["sterm", "sentenceterminal"], String.join [
      "1BAMAQA1aJA4TC5UA1LC7WA1zABADB9FB1nEBoWAEBoFA6GB4zB1NAFA9wBbCD5CBKBCBzC5xB2BBtEAXBJC35PC9SAN",
      "AWBdNAt7yA8OB7DADAb+B2WB2-A4YB4TC4QB7ZAkhGACB1xADB5JAMAQA2BA2nUB17zE1MD5zB3VD3-C4BBGAQB2YBBB",
      "3MA9KB3VBbVBFO3JB7ZCgFABA7xB2XBdEBlUB2KBipJB4FA2BBLAhJB9IAjgGA7fIA"]⟩,
  ⟨["sd", "softdotted"], String.join [
      "3JB6EA8ZA+A1UAUAaAA3CABA68JA1TANADA4EA4zAdFA6WB2pSA39tFB1SB1SB1SB1SB1SB1SB1SB1SB1SB1SB1SB1SB",
      "24GA9RBwA"]⟩,
  ⟨["term", "terminalpunctuation"], String.join [
      "1BAKABALBDAp+AIAgBA1ZA2IAOABC5UA1LKBA7LB1WFBH-A8FB17UB5MAEF9XBoVHoFA3yC2HB4zCDA1HDCB9wBbCD5C",
      "BKBBCzC5xE1+BtEAXBJC35PC9SANAEAKABBDBdMBt7xB8NC7DEb+B2WB2-A4XC4TC3-AQB7ZAkhGACB1ZCBD5JAKABAL",
      "BDA2BACA11wA1QA14GA6HA9WB4YF2EF2ZDtYE1MD5zG3QD3-C4BBGAQB2YE3MA9KB3VCMBbGDDO3JB7ZCgFABA7xB2XB",
      "EBc+C1NAkFB2KB19LEhfZB4FA2BCKAhJB9HBjgGA7fHD"]⟩,
  ⟨["uideo", "unifiedideograph"], "d0A6d-2Akf-mgOBBABBKABABBCC21eW19m-1A48zC5kNC79QPjN4dC4qKF89J"⟩,
  ⟨["upper", "uppercase"], String.join [
      "2BZ3FWBG1BABABABABABABABABABABABABABABABABABABABABABABABABABABABACABABABABABABABACABABABABAB",
      "ABABABABABABABABABABABABABABABABABABBBABADBBABBBCCDBBBCDBBBBABABBBACABBBCBABBDAHACACACABABAB",
      "ABABABABACABABABABABABABABACACABCBABABABABABABABABABABABABABABABABABABABABABABABABABABABABAH",
      "BBBCABDBABABABA9BABADAIAGABCBABBBQBI1DACCDABABABABABABABABABABABAFACABBC1S1QABABABABABABABAB",
      "ABABABABABABABABAJABABABABABABABABABABABABABABABABABABABABABABABABABABABBBABABABABABACABABAB",
      "ABABABABABABABABABABABABABABABABABABABABABABABABABABABABABABABABABABABABABABABABABABABABAC1F",
      "2qJ1FBAFAmS2V24TAG1KCCaAABABABABABABABABABABABABABABABABABABABABABABABABABABABABABABABABABAB",
      "ABABABABABABABABABABABABABABABABABABABABABABABABABABABABABABABABABABABABABABABABAJABABABABAB",
      "ABABABABABABABABABABABABABABABABABABABABABABABABABABABABABABABABABABABABABABABABABABABAJHIFK",
      "HIHIFLABABABAIH2IDMDMDMELD8GAEADCCCCADEGABABABDCDKBFAwPTApSZ1pQ1P1QABCCABABABDBACAICBABABABA",
      "BABABABABABABABABABABABABABABABABABABABABABABABABABABABABABABABABABABABABABABABABABABABABAIA",
      "BAEAuaNABABABABABABABABABABABABABABABABABABABABABABATABABABABABABABABABABABABABA4HABABABABAB",
      "ABADABABABABABABABABABABABABABABABABABABABABABABABABABABABABABABAKABABBBABABABAEABACABADABAB",
      "ABABABABABABABABEBEBABABABABABABABDBABBBABABABABABABABAYAlpLZ16F1H4I1D4yKBOBGBB1nK1S4zV2pw-l",
      "cA-2AYpaHZwZwZwABBCACBCDBHwZwBBDCHBGxBBDBEBADGxZwZwZwZwZwZ+Y1BY1BY1BY1BY1BA49V1B20OZGZGZ"]⟩,
  ⟨["vs", "variationselector"], "60LCBA1pfQPq0nQ7P"⟩,
  ⟨["wspace", "whitespace", "space"], "JESA3EAwA5e-A2b-KzBFA1PA3tAA"⟩,
  ⟨["xidc", "xidcontinue"], String.join [
      "1QJHZEABZ1PAKABACAFWB+BeJELOEHABAR3UBBDCBAGEBABTB2SB4KBEC5FB1FCAG1II1MBABBBBBAIwEDzKF2JE3FBH",
      "CJBSCAQ1wC3EO1VEACAC1NSxEKFXBGH2KB4ACJBSBHCBCVBGBADDCICBCDIAEBBECLKABACCBFEBCVBGBBBBBBCABEEB",
      "CCDAHDBAHPLCBIBCBVBGBBBECJBCBCCAPDCJJGBCBHCBCVBGBBBECICBCCHCEBBECJBAQBBFDCBDDBBABBDBDCDLEEDC",
      "BDCAGAOJQMBCBWBPCIBCBDHBBCBBCDCJQDBHBCBWBJBECIBCBDHBFCBDCJBCMMBCB1SBCBEFDHECJKFBCBRDXBIBACGD",
      "AEFBABHGJCBN1ZFOBJ1HBBABEBXBABWCEBABGBJCD1AAXBGJLABABAEJB1DETBRB1DJA1Z2JG2NC1FBAFAC1KBaMBDCG",
      "BABDC1IBDC1ABDCGBABDCOB1YBDC2CCCJIOPQ2VCFDjLCQBZF2KDKHVJVLTMMBCBBM2TDAEBCJ1BCBKG2YH1KF2FK+BL",
      "ELK1HCEL1LEZGK1FxE1+ByCKGJNAINB+CLU2MDJRIM3TM1XIJD1QCKF1KCCQCB1GFgVCFC1FCFCHBABABAB+C1UBGBAD",
      "CBGDDCFEMFCBGPB1RBTAyANAQM1TMEADLRAEACJBACFGABABABPCDFEEAR1I2jX7EGIM1FBAFAC1XHAPXJGBGBGBGBGB",
      "GBGBGB-gFCZOBECEE2VCBCCB2+F1KB2zR-1QPgA6d-2AlkM2D1NC8MDxU1PEJB3S1FIC3GC2RU1WEAT1TM2FKJGXDAB1",
      "QC1DMyD2AOKG+B1WJNCJGWD2IYCCPCEKFCFCFJGBGB1KBNG3wBBCJGatDMWE1Q88EbNC3J1GGMEFLBMBEBABBBBB3L1B",
      "4KG6ZS1-C1V1IJGPQPDBYC1BABADABABABAB3zTJHZEABZK2ZDFCFCFCC1DLBZBSBBBOCN1C3w2F1U4IA4CyD1QPA--N",
      "zF1KFzC1DEHBE1K4zCJG1DE1DE1HI1TMKBOBGBBBKBOBGBBD1TM9WJVKHYFB1JBI2FFCAB1LBBDACWKWJ+2BSBBKVKZG",
      "Z1G1XGB2ADBBFHBCByCCEA1AyDy1DHBzZ1VKVKSNR3O2I1X1SN1SN1HIJG1FDEBW7w1JBBDBQF1S1CKAI1A-V1KUxWJ2",
      "G-PJ1xHANYHJG1UBJEDI1DCAJ2EEDBMBA1DRB1EGD1+GBABDBOBJH1wFJGDBHCBCVBGBBBEBJCBCCCAGAFGCGDELJBAC",
      "AB1FBJBACABDBHNBz2KFJED+2FBAIJ5G1VCIXF1C2ADALJ1G1YHJGTywCOEJGG5Z1w3F2JVHCACHBBBzBBCIMJ2GHC1N",
      "CHBBx1+IAI2JDAS2I3HH2Y1APJGIB1MBIPJYzCVBN2JGBBB1LDABBBIIJGFBBB1EBBBFHJG1LEJ7WWJQB1IDENK2VA2P",
      "sZ3G3OR6D2iM3AP11PQVK3swFiG6lZ1Z1mGhYH+BJG2OBJGzCEL1WJDMJJUFSdQ1MDJ6G1-1AYCY1M2KE1YHQ2ABBBLG",
      "J76V1J-3B3S8fzDBGBBB9CPAzCCAODIcL28E3KFMDIHJDB42RJgG1NCWg+EDFIHCG+D4UCdx2UB2GBBCACBCDBLBABGB",
      "2ABDCHBGBxBDBEBADGBaTCYBYB+BYB+BYB+BYB+BYBHC1RgA1WE1RIAOAWEBO12Q+GF6VGBQCGBBBEF1z1BA3Q1MDNCJ",
      "EAaB+R1ZeW1J6W1K6F+BVIB7AGBDBBBOB6ELG1J2LEJ15GDBwBBBACABJBDBABAGAEABABABCBBBACABABABABABBBAC",
      "DBGBDBDBABJBQFCBEBQ39UJ10G19m-1A48zC5kNC79QPjN2dCgz1fC4qKF89Jlj4G7P"]⟩,
  ⟨["xids", "xidstart"], String.join [
      "2BZGZ1PAKAEAFWB+BeJELOEHABA4BEBBDCBAGABCBABTB2SB4KI5FB1FCAG1I2HwED1N1K1DBB3CBAPBHBKCCAQABzz2",
      "YLAY1AJBEAFVEAJADAXYHKFXBGQ1J1w1VDASAHJPPEHCBCVBGBADDDAQANBBCOBKAIFEBCVBGBBBBBB-DBATCQIBCBVB",
      "GBBBEDASAPBXALHCBCVBGBBBEDA+BBCPARABFDCBDDBBABBDBDCDLWA1UHBCBWBPDAwCBBCB+AEHBCBWBJBEDA+CBBPB",
      "RIBCB1ICAQAFCICYFFRDXBIBACG1w1PBANG1wBBABEBXBABJBAKACEBAVD1AA1-HB1DxE3T1KUAQFEDDADBHCEMMAR1F",
      "BAFAC1KBaMBDCGBABDC1IBDC1ABDCGBABDCOB1YBDC2C1FPQ2VCFDjLCQBZF2KDKHRNSOROMBCP1T1DAEA2D2YH1IBAF",
      "2FK+1RzCEL1LEZ1WWJ1U2SA2z1ORH1WzNBK1Lw1D1JCK1DCKF1KCC1JDBFBBDAF5-2A8VCFC1FCFCHBABABAB+C1UBGB",
      "ADCBGDDCFEMFCBG3UANAQM3FAEACJBACFGABABABPCDFEEAR1I2jX7EGDDBM1FBAFAC1XHAQWJGBGBGBGBGBGBGBGhGC",
      "ZIHECEE2VGCB2ZBDF1KB2zR-1QPgA6d-2AlkM2D1NC8MDPKBU1OQ+C2P1HIC3GC2RUQBCBDBWz1TO1R1+FDABBLxKWZy",
      "H1OyAQEBJKEB1IXCBHUWDAD1RBADBCECABAYCCKHCMFCFCFJGBGB1KBNG3SzatDMWE1Q88EbNC3J1GGMEFABJBMBEBAB",
      "BBBB3L1B4KG6ZS1-C1V1IJ3XABADABABABAB3z1EZGZL1XC+DFCFCFCC1DLBZBSBBBOCN1C3w2F1U8LyD1Q1P-NzF1FK",
      "zC1DEHBE1K4zS1DE1DE1HI1TMKBOBGBBBKBOBGBBD1TM9WJVKHYFB1JBI2FFCAB1LBBDACWKWJ+2BSBBKVKZGZ1G1XGB",
      "2AAPDBCBy1KyDy1DHBxx1VKVKSNR3O2I1X1SN1SN1D1GxJW7w1JGBQF1YyKAIV1KR1OUxWM1U1ZBCAN1M1AYw1DzACAI",
      "1CDAM1PODVABA1DRBYTB1-GBABDBOBJH1O1GHCBCVBGBBBEDASAME+JBACAB1FBAZABA1M1USDUC+1PUBBA5Y1O1JD1E",
      "1PUA1x1KNA2Hw1FG5Z1L3U1--HCACHBBBXPABA2+HC1GQABAyAK1HHAVAL1NTAS2I6H1A-IB1ERA1Rz3QGBBB1FVAZFB",
      "BB-OAX1L8ESPABMB1B3yA2PsZ3G3OR6D2iM3AP11PRFZ3swFiG6lZz1nChYH+R2ORzS1PQD-UFSdQ1M6T1-1AYCY1M2K",
      "FA2CM2ABBAOEJ76V1J-3B3S8fzDBGBBB9CPAzCCAODIcL28E3KFMDIHJ5rG2UB2GBBCACBCDBLBABGB2ABDCHBGBxBDB",
      "EBADGBaTCYBYB+BYB+BYB+BYB+BYBH1pU+GF8F1z4S1MKGQAaBzS1LfEx7EzCA6P+BCBBBGCEJB7AGBDBBBOB6E1x2DH",
      "A15UDBwBBBACABJBDBABAGAEABABABCBBBACABABABABABBBACDBGBDBDBABJBQFCBEBQ4aE19m-1A48zC5kNC79QPjN",
      "2dCgz1fC4qKF89J"]⟩]

/-- The ranges of a binary property, by its normalised name. -/
def binaryRanges? (name : String) : Option (List Range) :=
  find? binaryProperties name

/-- The part of a list of ranges beyond ASCII. -/
def beyondAscii (rs : List Range) : List Range :=
  rs.filter (128 ≤ ·.1)

/-- The characters of words: alphabetic characters, marks, decimal digits, connectors and joiners.
The first four ranges are those in ASCII. -/
def wordRanges : List Range :=
  [(0x30, 0x39), (0x41, 0x5A), (0x5F, 0x5F), (0x61, 0x7A)] ++
    beyondAscii (mergeRanges (((binaryRanges? "alphabetic").getD []) ++
      ((categoryRanges? "m").getD []) ++ ((categoryRanges? "nd").getD []) ++
      ((categoryRanges? "pc").getD []) ++ ((binaryRanges? "joincontrol").getD [])))

/-- The decimal digits of every script. The first range is the one in ASCII. -/
def digitRanges : List Range :=
  (0x30, 0x39) :: beyondAscii ((categoryRanges? "nd").getD [])

/-- The blanks. -/
def blankRanges : List Range :=
  [(0x09, 0x0D), (0x20, 0x20), (0x85, 0x85), (0xA0, 0xA0), (0x1680, 0x1680), (0x2000, 0x200A),
    (0x2028, 0x2029), (0x202F, 0x202F), (0x205F, 0x205F), (0x3000, 0x3000)]

/-- The ranges of the characters of words, for searching. -/
def wordTable : Array Range := wordRanges.toArray

/-- A character of a word. -/
def isWordChar (c : Char) : Bool :=
  if c.toNat < 128 then c.isAlphanum || c == '_' else inSortedRanges wordTable c.toNat

end CodeOutline.Unicode
