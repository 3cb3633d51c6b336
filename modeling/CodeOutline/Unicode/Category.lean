import CodeOutline.Unicode.Ranges

/-! # General categories

The characters of each general category, and the categories that group several others.
-/

namespace CodeOutline.Unicode

/-- The categories that are not groups. Surrogates are no characters, so their category is absent. -/
def categories : List NamedRanges := [
  ⟨["cc", "control", "cntrl"], "A-2-1A"⟩,
  ⟨["cf", "format"], "5NA1aSFWA6AA1RAcAB2QA3pLA1vyEwE1REBJ1nkPA7ZC46BAPA8rCP123AD56PHobkGA+2-"⟩,
  ⟨["cn", "unassigned"], String.join [
      "rYBGDHABAUAcNA1GB1SBDA1XHxDGK8OA1yB3FN1xB1RBPAyBBALE1CE7NAIBCBWAHABCEBJBCBEHBDCAFBZBDAGDCBWA",
      "HACACACBBAFDCBDCBGEABGRJDAJADAWAHACAFBKADADBBOEBMGHADAIBCBWAHACAFBJBCBDGDDCAFBSJCAGCDAECCABA",
      "CCCCDCMDFCDAEBBFBNVENADAXAQBJADAEGCADACBEBKGWADAXAKAFBJADAEGCEDAEBKADLNADA1TADAGDQBwADASCYAJ",
      "ABBHCBDGABAIFKBDL1wDz1ECABAFAYABAXBFABAHAKBE-2IA1ED1HA1EAPAN1E6GABEBBbZAEBHABAEB1JAEB1BAEBHA",
      "BAEBPA1ZAEB2DB1ACwF2WBGBkzC2ZGWIYIULNADACL2+BKFKFwF2ZG1LE2GJ-AMDMDBC1KBFK1MDwFLC1+B2BAzBLFKF",
      "OB1OBMT2NA5GH1yCPC1+E1LBLH1LEgWBGB1GBGBIABABABA-B1VAPAOBGATBDAJA3FAMBxANC1CN1BO4MDkwVLU1oUBb",
      "+E1NABEBB1YGCNYIHAHAHAHAHAHAHAHA3+1BwA2ZL6WZ2QA2WB3HE1LA2+A2WI1QAsjNC1XIayT5YH6zT1yCKF1YH2GH",
      "MF3UK+C2OALD1BA1XIOBKB3HXyJGBGBGIHAHA1yD3+BKFatELXD1RD8jOB3K1FHLFEwAFABACACAkK-1KF1TATAEDFA4",
      "HBBA5+CGBGBGBDCHAHJFBMAwATACAPBO1B3xEDD1NC2YANCB1O1O4BzC1ROyD1EI+E1LE+A1FDO1J4+BKF1ED1ED1IH1",
      "UKMAPAHACALAPAHACC1UL9XIWJIXGA1KAJ2EGBBA1MACCBBXA2IHJ1PTACE1BCxEx1F1YDUB1SACEIADAzBDDKGJG2A-",
      "1HDMI1WCzBxEwGELH2P2J1W1TM1TG1OHKF1GCzHC6P-A1KADBCPGHJ1A1OH1KVw1FyTXI2OD1EI2EJBBZGKF1VASH1HI",
      "3AAUKSA1P1zHABAEAPALF1xEKFEAIBCBWAHACAFAKBCBDBBFBEHBHCFKKABBBA1GAKABBBAEAKACHCy2yAFz2IHK5F1W",
      "B1G1B2FKKFNS1wFKFUxxBPDX5Y1y3D2TLIBBBIACA+ACBMIK2FIB1OBLw2IH2TM2JGK2VI2X1CNKFJA1NAOJzC1ABWAO",
      "2IHACA1MCBACAJHKFGACA1FACAGGKF1MDK7VZGRA1JCz2UBO1SMsx3F3PAFK6E2iL3DM12WJ3sxEiH6lY1w1mFhZG-AK",
      "D2RAKF+BGJ2GJKAHAVETdP1w6F2xEZBZ1L2LD1ZGR1-FKHI76W1I1A3A3T8fyEAHACA9DOByDBBNEHcM28D3LENCJGKB",
      "I3qx7zCdUFXORO1OBXI3U1x7WJ1HB6CU2G3ZULUL2XIZ4G2VA2HACBBBCBEAMABAHA2BAEBIAHAyAEAFABCHAaUB9EBl",
      "+OFAP12P-FG6UHARBHACAFE1+1AB3P1NCOBKDC9--Q1wEBeP1K6V1LDB5--AWHC6-HAEACAPA6FBQ1I2MDKDCoQ2E2L1",
      "z6BEAxACABBBAKAEABABFBDBABABADACABBBABABABABACABBEAHAEAEABAKAREDAFAR1TC8N1MD3ELPBPAPA1FJ5O1X",
      "zM1MDJGCNG4ZuZCRCNC6wFMDBOMD1YHKF1IH+BMDCNJ1GaYHOBNCLC1ZABDQBMDKG4TA3H10E19nA-48+B5kOB79ROjO",
      "2dBg+1fB4qLE89KlisGBz3A3-7Q1vgP1vv+B1vv+B"]⟩,
  ⟨["co", "privateuse"], "1o0A67-s1oA1vvzC1vvz"⟩,
  ⟨["ll", "lowercaseletter"], String.join [
      "3BZ1wA1JXBHBABABABABABABABABABABABABABABABABABABABABABABABABABABABBBABABABABABABABBBABABABAB",
      "ABABABABABABABABABABABABABABABABABABACABABCCABACADBEACADCCACABABACABBBACADABACBCCGACACABABAB",
      "ABABABABABBBABABABABABABABABBCABADABABABABABABABABABABABABABABABABABABABABABABABABABABABABAB",
      "GCACBBAEABABABAB2ECZ6BABADADCSAx1CBBDCBABABABABABABABABABABABEBACACB1T1PBABABABABABABABABABA",
      "BABABABABABABAJABABABABABABABABABABABABABABABABABABABABABABABABABABACABABABABABABBBABABABABA",
      "BABABABABABABABABABABABABABABABABABABABABABABABABABABABABABABABABABABABABABABABABABABA1Q1I2q",
      "H1KCCnYF24CIBA3V1L1-MB1B3GABABABABABABABABABABABABABABABABABABABABABABABABABABABABABABABABAB",
      "ABABABABABABABABABABABABABABABABABABABABABABABABABABABABABABABABABABABABABABABABABIBABABABAB",
      "ABABABABABABABABABABABABABABABABABABABABABABABABABABABABABABABABABABABABABABABABABABABABIIFK",
      "HIHIFKHIHINCHIHIHIEBBGADCBBIDCBIHKCBB8SADBDAxAEAEACBIDEA1VA2lL1PBADBBABABAEABBBFFABABABABABA",
      "BABABABABABABABABABABABABABABABABABABABABABABABABABABABABABABABABABABABABABABABABABABABBHABA",
      "EAM1FBAFAu8TABABABABABABABABABABABABABABABABABABABABABABATABABABABABABABABABABABABABA4HABABA",
      "BABABABCBABABABABABABABABABABABABABABABABABABABABABABABABABABABABABABABHBABACABABABABAEABACA",
      "BCBABABABABABABABABABAFAFABABABABABABABAEABACABABABABABABABAwADApV1KFIH2PjqAGME11JZ16N1H4I1D",
      "4xKBOBGBB1oD1S3zV2pw-lcA-1xYpaGZwGBRwZwDBABGBKwZwZwZwZwZwZwZwZwxyYBFwYBFwYBFwYBFwYBFBA1pUJBT",
      "GF2fX1B"]⟩,
  ⟨["lm", "modifierletter"], String.join [
      "lQRELOEHABA4FAFAe+A7GA5EB8NBEA-AJADA5AA5HA16UA3-AhVA1mwA3LAjDAeQF5O1+NA1C1ElRANAQM2u-B7RA5-A",
      "eVA1LEFA3BB2zCroWA17CF8OA3SAyB3ZI2QAXA3IDDBeVAWA4JA3MAVB3HDJAl0GA1NB1vAFB1JBI1cTA1AAaVA3oTAj",
      "bGDfyC1IBhGM2ABBAOBfvyDBGBBc1R1z6JGtNAgTAiLA"]⟩,
  ⟨["lo", "otherletter"], String.join [
      "5KAPA8AAED6QBpwwED1N-BJ1DBB3CBAYBKCCAQABzz2YLAY1AVV1KYHKFXBGQ1I1x1VDASAHJQOEHCBCVBGBADDDAQAN",
      "BBCOBKAIFEBCVBGBBBBBB-DBATCQIBCBVBGBBBEDASAPBXALHCBCVBGBBBEDA+BBCPARABFDCBDDBBABBDBDCDLWA1UH",
      "BCBWBPDAwCBBCB+AEHBCBWBJBEDA+CBBPBRIBCB1ICAQAFCICYFFRDXBIBACG1w1PBBMF1xBBABEBXBABJBBJACEXD1A",
      "A1-HB1DxE3T1KUAQFEDDADBHCEMMA3RaIBDCGBABDC1IBDC1ABDCGBABDCOB1YBDC2C1FP3RjLCQBZF2KGHHRNSOROMB",
      "CP1T1IA2D1CB1UHEC1BBAF2FK+1RzCEL1LEZ1WWJ1U5Q1ORH1WzNBK1Lw1D1JCKz3RDBFBBDA11wD2vX1XYWJGBGBGBG",
      "BGBGBGBGhHA1VAE2VIAB2ZEAF1KB2zR-1QPgA6d-2AkgUB13W2D1HI8LEPKB2CA1R2F5JA3HADGBCBDBWz1TO1R1+FDA",
      "BBLxKWZyH1O1NECIKEB1IXCBHUPBFDAD1RBADBCECABAYBDKHAOFCFCFJGBG4R1CzatDMWE1Q88EbNC3J2DABJBMBEBA",
      "BBBBB3L1BbKS1-C1V1IL3UEB4G3JJB1MC+DFCFCFCC1DLBZBSBBBOCN1C3wcFyD1Q1P-NTBHG1FKzC1DEH4A2N3C1HI1",
      "T2y1TM9WJVKH4YFCAB1LBBDACWKWJ+2BSBBKVKZGZ1G1XGB2AAPDBCBy1KyDy1DHBxx1VKVKSNR3O2I5X1D1GDBA9Q1J",
      "GBQCBB1YyKAIV1KR1OUxWM1U1ZBCAN1M1AYw1DzACAI1CDAM1PODVABA1DRBYTB1-GBABDBOBJH1O1GHCBCVBGBBBEDA",
      "SAME+JBACAB1FBAZABA1M1USDUC+1PUBBA5Y1O1JD1E1PUA1x1KNA2Hw1FG5Z1L6THCACHBBBXPABA2+HC1GQABAyAK1",
      "HHAVAL1NTAS2I6H1A-IB1ERA1Rz3QGBBB1FVAZFBBB-OAX1IBB8ESPABMB1B3yA2PsZ7G6D2iM3AP11PRFZ3swFiG6lZ",
      "z1nChYH+R2ORzS1P1TUFSdT1HcV2KFA5P76V1J-3B3S8gN9CPAzCCAODIcL28E3KFMDIHJ8jQAfV1M1BAaBzS1LfEw7F",
      "zCA6P+BCBBBGCEJA7BGBDBBBOB6E19xDBwBBBACABJBDBABAGAEABABABCBBBACABABABABABBBACDBGBDBDBABJBQFC",
      "BEBQ4aE19m-1A48zC5kNC79QPjN2dCgz1fC4qKF89J"]⟩,
  ⟨["lt", "titlecaseletter"], "eFACACA1GA7cVHIHIHMAPA1PA"⟩,
  ⟨["lu", "uppercaseletter"], String.join [
      "2BZ3FWBG1BABABABABABABABABABABABABABABABABABABABABABABABABABABABACABABABABABABABACABABABABAB",
      "ABABABABABABABABABABABABABABABABABABBBABADBBABBBCCDBBBCDBBBBABABBBACABBBCBABBDAHACACACABABAB",
      "ABABABABACABABABABABABABABACACABCBABABABABABABABABABABABABABABABABABABABABABABABABABABABABAH",
      "BBBCABDBABABABA9BABADAIAGABCBABBBQBI1DACCDABABABABABABABABABABABAFACABBC1S1QABABABABABABABAB",
      "ABABABABABABABABAJABABABABABABABABABABABABABABABABABABABABABABABABABABABBBABABABABABACABABAB",
      "ABABABABABABABABABABABABABABABABABABABABABABABABABABABABABABABABABABABABABABABABABABABABAC1F",
      "2qJ1FBAFAmS2V24TAG1KCCaAABABABABABABABABABABABABABABABABABABABABABABABABABABABABABABABABABAB",
      "ABABABABABABABABABABABABABABABABABABABABABABABABABABABABABABABABABABABABABABABABAJABABABABAB",
      "ABABABABABABABABABABABABABABABABABABABABABABABABABABABABABABABABABABABABABABABABABABABAJHIFK",
      "HIHIFLABABABAIH2IDMDMDMELD8GAEADCCCCADEGABABABDCDKBFA1zA2jy1P1QABCCABABABDBACAICBABABABABABA",
      "BABABABABABABABABABABABABABABABABABABABABABABABABABABABABABABABABABABABABABABABABABABAIABAEA",
      "uaNABABABABABABABABABABABABABABABABABABABABABABATABABABABABABABABABABABABABA4HABABABABABABAD",
      "ABABABABABABABABABABABABABABABABABABABABABABABABABABABABABABAKABABBBABABABAEABACABADABABABAB",
      "ABABABABABABEBEBABABABABABABABDBABBBABABABABABABABAYAlpLZ16F1H4I1D4yKBOBGBB1nK1S4zV2pw-lcA-2",
      "AYpaHZwZwZwABBCACBCDBHwZwBBDCHBGxBBDBEBADGxZwZwZwZwZwZ+Y1BY1BY1BY1BY1BA49V1B"]⟩,
  ⟨["mc", "spacingmark"], String.join [
      "28DA1XACCIDBB1SB1wCGBCBKA1LA1wC2CA1wCIABB1VB1wABAGBCBKA3GBBBDCBCKA1JC1zD1zB1wABECBBBJByAOB1w",
      "CFCBCKA1KB2LCGHSBaKB1-A5LBEAGACBZBKCCGVBCFCAKC1jYA+A4BAHHBBawDCCEBBF7AB1wABAJABBIF4RA1QAFABE",
      "BB1zA+AEBCA1yACCBADB1QHIB5LAVA4pWBtvTBCA2YB1SP4OB1PA1QBEBCC3OBCBYA1NABA3NACBFA7NBBBBBBAp0TAB",
      "A3-A1NCEB3TAYB1xA1QCJBNA2zCDBBA5KC-B1wBBDCBCCJAKB2UCHACABDBBBA3FCIBDA3KCGABDCA7NCGDCA3RCIBBA",
      "3NABBGA3HABBEA8FCJA7XFBBEACABA4OCIDEA2UAzB1+A6JADABA6HAOA3KAHACA6VEEBBAa+BMA1QBIBBAgfIC3hE1W",
      "3IBobTBGF"]⟩,
  ⟨["me", "enclosingmark"], "14IB5hUA1g+DBC11cLC"⟩,
  ⟨["mn", "nonspacingmark"], String.join [
      "oA3P8TE8J1MBABBBBBA2IK1QUQA3FGCFCBBD1DA+w2xK1wIJAYDBIBCBE1LC1xI1KXB-1XABAEHEADGKBzA1wAEDIAUB",
      "wACB1ZAEBEBCCDA+BDALB1ZAEEBBEAUBWFBA1wACABDIAHBLB+A1zAMA1SADA1XABCFCBDHBLBzA1wACAGAFBUByB1ZB",
      "EDIAUBzA2IAHCBA2wACGMH3CACILG2JBxABABA1XNBEBBFKB1DJA3GDBFBBCBZBECQDNACBGAPAl-CtSCzB+B+B2ABBG",
      "IACKJA1NCBA3VB1CA3WCEBJAGC6xBCA1wABGBABACHGJCA1QNB+CLUD1QABEBAFA1IIMB1ADCBBC1YABBDABC1wHCB4Y",
      "CBMBGEAGADB6G1-mQMEADL2v+C4NA3A-hKD3LBteUAEJ1AB2QB8QADAEAZBFA4XBwRNA1GHZK1OC1QACDCB1HA2DFCBC",
      "BMAIA1PA1TABCCBFBBA1KBIA7OACAEAjpQAnBPQPuNA7CA4VE1kGCBBFD1ICEA5FBhzD2BE9zB2NF2GK1RD3xA1WO1JA",
      "CBKC1RDCBHA1zC1EEBH1+AMB1UIKDCA2-CCABBGACA4zADHVB1ZBDA1FGDE2GFNABABAOB2VHCCBAXA2UFBAEBBB7ODG",
      "BBBxB2VHCABB3KABACFBA3FABACDBE8DIBB8ABBAEA4QDCBEA1AJ1IFCDIAJFCC1OMBB6GABCBA6JGBFBA2SVCGBBBB3",
      "wFDABBBGBA2IBDABAaxBLB1UEFABAXA57FAGOb6ILDC2eAE1xG10YA1-D2RAj5YB4jB1NCWhACRHCG+D4UC1tx1WE1RI",
      "AOAWEBO1aQGBQCGBBBE3EA5AGbXA1zDfyD7+B7TACAHBFAewG3NGo5tV7P"]⟩,
  ⟨["nd", "decimalnumber", "digit"], String.join [
      "1QJ1hGJ4GJ6GJcyJ3WJ3WJ3WJ3WJ3WJ3WJ3WJ3WJ3WJ3AJ3WJ2GJ8WJ2GJ1qGJ1GJ9MJ4AJ5GJGJ5WJ2WJ4GJGJ12eGJ",
      "lGJ1GJ6GJWJ2WJcWJkoWJ1cGJ24GJGJoyJ4AJ1yJ4QJ8WJaWJ3WJbWJ3GJGT2MJdGJ3GJkWJ2WJ7WJ2GJ1WJbGJgeWJ2",
      "9GJ2WJ4GJgWJnrWJ2mU1R2aAJdGJfWJ7XJqVJ4kWJ"]⟩,
  ⟨["nl", "letternumber"], "5nOC2jP1CCD3j+AZIOCtlLJmiQ1UeMAIA4GE81K3OisFC"⟩,
  ⟨["no", "othernumber"], String.join [
      "5SBFACC29VFbYF3YC4FG6ZGRIdRJ11VT13TJfAA1kVADFGJ6GP1JAmW1x2OVjWz1bJA14UD4KJ+HBO1AJ1HOtbQFm6R1",
      "M2BDRBaVw1ED19UHZG1HI2LEWF5ABCPC1N2AI1UB+C2LE3IHYH1JGaKFbA+4+J1KD3QG4GTbxT1aFBdOIrHSqTUisGGo",
      "+Wp1JTMT3MY5aOItB1wBCBD2M1MBOuCM"]⟩,
  ⟨["pc", "connectorpunctuation"], "2-A7u-BTA1ne+BYC7PA"⟩,
  ⟨["pd", "dashpunctuation"], "1NA1ayA1TA3iBA10FA20JF3gBACA-BEAyAd+ATA3PA1jcQB1FAKA5JA3jAA9+A"⟩,
  ⟨["pe", "closepunctuation"], String.join [
      "1JA1TA-A3lzABA1q+A2dJA1XAPAjwABA+A11+ABABABABABABA2QA1AABABABABAcUABABABABABABABABABABA2AABA",
      "1BA11FABABABA1MABABABAdMABABABABADABABABACB1j8+A6ZAzABABABABABABABADARABABA5KA1TA-ACACA"]⟩,
  ⟨["pf", "finalpunctuation"], "5xA7qzADAyA3eIABAEACAPADA"⟩,
  ⟨["pi", "initialpunctuation"], "5LA7rMACBCAZA3eIABAEACAPADA"⟩,
  ⟨["po", "otherpunctuation"], String.join [
      "1BCBCCABABBKBDBxA2EAFAOBHAl+AIAeSF1JA1WACACA1MBUBBBNABC2KD3GA1LN7JC1WO-A8FBKA4MA3YA3ZAcGAMAb",
      "PA2wAKB5IOBA3QA2KEEB3PF5LAjEIoFA3yC2HB4zCBC1FFBD9ZB6YB4AGBF5ABKGyC3yD1xE1+B2AHLAqCBIHIICDCCD",
      "KBABJ34wDBB3QA4PBECCACIBBBACBKEBJCDBABMCCdMC1ZA5zAt0CB8NC3DAKA3TFbyD2WB1ICBA1RB1PA3BMQB3yD3+",
      "BQB7ZAkhEGCAWAUBCDDCBDHCGABB4VCBCCABABBKBDBxA1EACBcwCkyA1QAc+AnHA6HA-A8QI1GA3QG2CG2ZDpTA4EE1",
      "MD5zG3NBBD3+D1QB2PDEANABC2YF3LA9KBBB3SEKBBA3IA7wW3JCyM2MA4CC7yA8IC4xA2yH2TCBE2zJ6XA2-E1KBkFB",
      "2KM5PA13QE2ryBejxB4FA2BEIAhIC9HDaHAj5yA7fHE2rTAq+B"]⟩,
  ⟨["ps", "openpunctuation"], String.join [
      "1IA1SA-A3l+ABA1q+A2b+ADA1GA1XAPAjwABA+A11+ABABABABABABA2QA1AABABABABAcUABABABABABABABABABABA",
      "2AABA1BA11FABABABAZASABABABAdMABABABABADABABABACA1j9BA6XAzABABABABABABABADARABABA5KA1SA-ADAC",
      "A"]⟩,
  ⟨["sc", "currencysymbol"], "1EA3zD17JA3xAfSBfSBHA7VA8HAiFA2cxA26E1B11rWAleDA3MA4wA6xBDB7vWD1go+A2dQA"⟩,
  ⟨["sk", "modifiersymbol"], "2+ABA2HAGAEADAgJDMNFGBABQ3VAOB18CA5pUABCLCNCNCNB44yBtjDWJB3HBuQAOBk2GQrxABA5CA1t0XE"⟩,
  ⟨["sm", "mathsymbol"], String.join [
      "1LAQC1zABA1NAEA1FA-An+AgPC6hxANA1HCNC4LA1HEGA2EEFBEACACAHA-BCABA-8L1AB2wA+Y1IFeVAJA1WH3PAaQE",
      "C+KP8A4CW1+E-C8B1QUCF1juyApYABC5EAQC1zABA4DAGD3dBB1gbAA1uQAZA-AZA-AZA-AZA-AZA5pMB2e+I"]⟩,
  ⟨["so", "othersymbol"], String.join [
      "5GACAEABAuRA8KB3-B6OAKATB7XAgDAbVA4CFBA4EA6PA1JAcHCPABCCFUABABA4FHBFBBFD6FBnQJmTAmSA4z1BbBJJ",
      "I1cDBBDBBKABBGFBABABAEALBOABBBA1wBJECDBBBBBGB+CBBAB+8MHETCGC2QBzZ1HG2HWK2R2NW5WBIB1VI3OB7X1M",
      "1L2A7-gA1PVBG1GC4J7FFbFB1OZB2YM6VwPEANBMAVBGBaQBEJ1A1FJAQ+LzIAP-K1GP9-6eA1-lkQ1WrBDKBBAhzCka",
      "JPbNP2AB1WH1NCfEADAEBNB9ZI1ZQCCBMDA1P1M1jwBiPA10IH23GA24VHEQiqKDFAkaWA3rD7PKCDdTGWPP3A3T1y7V",
      "K1GC1xFCWBHzE1yV2BDA5w2W15Jf-1XD1SHBNBB1mIA2qyA4BAmR1LE3DMOCOBOB1EX5A1YyN1LEIHBOF4w7wFmYDQDM",
      "D6ZGLEAPLE1XIJG1HIzCLEB1+aXINCMDKD1YBAEPCLEJH4SB2xKA"]⟩,
  ⟨["zl", "lineseparator"], "81IA"⟩,
  ⟨["zp", "paragraphseparator"], "81JA"⟩,
  ⟨["zs", "spaceseparator"], "1AA3-A5e-A2b-K1EA1PA3tAA"⟩]

/-- The groups of categories: the names of a group, and the categories in it. -/
def categoryGroups : List (List String × List String) := [
  (["c", "other"], ["cc", "cf", "cn", "co"]),
  (["l", "letter"], ["ll", "lm", "lo", "lt", "lu"]),
  (["lc", "casedletter"], ["ll", "lt", "lu"]),
  (["m", "mark", "combiningmark"], ["mc", "me", "mn"]),
  (["n", "number"], ["nd", "nl", "no"]),
  (["p", "punctuation", "punct"], ["pc", "pd", "pe", "pf", "pi", "po", "ps"]),
  (["s", "symbol"], ["sc", "sk", "sm", "so"]),
  (["z", "separator"], ["zl", "zp", "zs"])
]

/-- The ranges of a category or of a group, by its normalised name. -/
def categoryRanges? (name : String) : Option (List Range) :=
  match name with
  | "any" => some [(0, 0x10FFFF)]
  | "ascii" => some [(0, 0x7F)]
  | "assigned" => (find? categories "cn").map complementRanges
  | _ =>
    match categoryGroups.find? (·.1.contains name) with
    | some (_, members) => some (members.flatMap fun m => (find? categories m).getD [])
    | none => find? categories name

end CodeOutline.Unicode
