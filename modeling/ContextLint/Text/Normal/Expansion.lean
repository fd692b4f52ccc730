/-!
# Characters that stand for several

A ligature stands for its letters, an enclosed number for its digits and brackets, and a word in one
character for the letters of the word. No character of an expansion is expanded any further.
-/

namespace ContextLint.Text

/-- Characters one behind the other that stand for texts: the first, and the texts of all with
blanks in between. -/
def textExpansions : List (Nat × String) :=
  [(0x132, "IJ ij"), (0x13F, "L· l·"), (0x149, "ʼn"),
   (0x1C4, "DZ\u030C Dz\u030C dz\u030C LJ Lj lj NJ Nj nj"), (0x1F1, "DZ Dz dz"),
   (0x344, "\u0308\u0301"), (0x587, "եւ"), (0x675, "اٴ وٴ ۇٴ يٴ"),
   (0x958, "क\u093C ख\u093C ग\u093C ज\u093C ड\u093C ढ\u093C फ\u093C य\u093C"),
   (0x9DC, "ড\u09BC ঢ\u09BC"), (0x9DF, "য\u09BC"), (0xA33, "ਲ\u0A3C"), (0xA36, "ਸ\u0A3C"),
   (0xA59, "ਖ\u0A3C ਗ\u0A3C ਜ\u0A3C"), (0xA5E, "ਫ\u0A3C"), (0xB5C, "ଡ\u0B3C ଢ\u0B3C"),
   (0xE33, "\u0E4Dา"), (0xEB3, "\u0ECDາ"), (0xEDC, "ຫນ ຫມ"), (0xF43, "ག\u0FB7"), (0xF4D, "ཌ\u0FB7"),
   (0xF52, "ད\u0FB7"), (0xF57, "བ\u0FB7"), (0xF5C, "ཛ\u0FB7"), (0xF69, "ཀ\u0FB5"),
   (0xF73, "\u0F71\u0F72"),
   (0xF75, "\u0F71\u0F74 \u0FB2\u0F80 \u0FB2\u0F71\u0F80 \u0FB3\u0F80 \u0FB3\u0F71\u0F80"),
   (0xF81, "\u0F71\u0F80"), (0xF93, "\u0F92\u0FB7"), (0xF9D, "\u0F9C\u0FB7"),
   (0xFA2, "\u0FA1\u0FB7"), (0xFA7, "\u0FA6\u0FB7"), (0xFAC, "\u0FAB\u0FB7"),
   (0xFB9, "\u0F90\u0FB5"), (0x1E9A, "aʾ"), (0x1F71, "α\u0301"), (0x1F73, "ε\u0301"),
   (0x1F75, "η\u0301"), (0x1F77, "ι\u0301"), (0x1F79, "ο\u0301"), (0x1F7B, "υ\u0301"),
   (0x1F7D, "ω\u0301"), (0x1FBB, "Α\u0301"), (0x1FC9, "Ε\u0301"), (0x1FCB, "Η\u0301"),
   (0x1FD3, "ι\u0308\u0301"), (0x1FDB, "Ι\u0301"), (0x1FE3, "υ\u0308\u0301"), (0x1FEB, "Υ\u0301"),
   (0x1FF9, "Ο\u0301"), (0x1FFB, "Ω\u0301"), (0x212B, "A\u030A"), (0x2161, "II III IV"),
   (0x2165, "VI VII VIII IX"), (0x216A, "XI XII"), (0x2171, "ii iii iv"),
   (0x2175, "vi vii viii ix"), (0x217A, "xi xii"), (0x309F, "より"), (0x30FF, "コト"),
   (0xFB00, "ff fi fl ffi ffl st st"), (0xFB13, "մն մե մի վն մխ"), (0xFB1D, "י\u05B4"),
   (0xFB1F, "ײ\u05B7"), (0xFB2A, "ש\u05C1 ש\u05C2 ש\u05BC\u05C1 ש\u05BC\u05C2 א\u05B7 א\u05B8"),
   (0xFB30, "א\u05BC ב\u05BC ג\u05BC ד\u05BC ה\u05BC ו\u05BC ז\u05BC"),
   (0xFB38, "ט\u05BC י\u05BC ך\u05BC כ\u05BC ל\u05BC"), (0xFB3E, "מ\u05BC"),
   (0xFB40, "נ\u05BC ס\u05BC"), (0xFB43, "ף\u05BC פ\u05BC"),
   (0xFB46, "צ\u05BC ק\u05BC ר\u05BC ש\u05BC ת\u05BC ו\u05B9 ב\u05BF כ\u05BF פ\u05BF אל"),
   (0xFBA4, "ە\u0654 ە\u0654"), (0xFBB0, "ے\u0654 ے\u0654"), (0xFBDD, "ۇٴ"),
   (0xFBEA, "ي\u0654ا ي\u0654ا ي\u0654ە ي\u0654ە ي\u0654و ي\u0654و ي\u0654ۇ ي\u0654ۇ ي\u0654ۆ"),
   (0xFBF3, "ي\u0654ۆ ي\u0654ۈ ي\u0654ۈ ي\u0654ې ي\u0654ې ي\u0654ې ي\u0654ى ي\u0654ى ي\u0654ى"),
   (0xFC00, "ي\u0654ج ي\u0654ح ي\u0654م ي\u0654ى ي\u0654ي بج بح بخ بم بى بي تج تح تخ تم تى تي ثج"),
   (0xFC12, "ثم ثى ثي جح جم حج حم خج خح خم سج سح سخ سم صح صم ضج ضح ضخ ضم طح طم ظم عج عم غج غم فج"),
   (0xFC2E, "فح فخ فم فى في قح قم قى قي كا كج كح كخ كل كم كى كي لج لح لخ لم لى لي مج مح مخ مم مى"),
   (0xFC4A, "مي نج نح نخ نم نى ني هج هم هى هي يج يح يخ يم يى يي ذ\u0670 ر\u0670 ى\u0670"),
   (0xFC64, "ي\u0654ر ي\u0654ز ي\u0654م ي\u0654ن ي\u0654ى ي\u0654ي بر بز بم بن بى بي تر تز تم تن"),
   (0xFC74, "تى تي ثر ثز ثم ثن ثى ثي فى في قى قي كا كل كم كى كي لم لى لي ما مم نر نز نم نن نى ني"),
   (0xFC90, "ى\u0670 ير يز يم ين يى يي ي\u0654ج ي\u0654ح ي\u0654خ ي\u0654م ي\u0654ه بج بح بخ بم"),
   (0xFCA0, "به تج تح تخ تم ته ثم جح جم حج حم خج خم سج سح سخ سم صح صخ صم ضج ضح ضخ ضم طح ظم عج عم"),
   (0xFCBC, "غج غم فج فح فخ فم قح قم كج كح كخ كل كم لج لح لخ لم له مج مح مخ مم نج نح نخ نم نه هج"),
   (0xFCD8, "هم ه\u0670 يج يح يخ يم يه ي\u0654م ي\u0654ه بم به تم ته ثم ثه سم سه شم شه كل كم لم"),
   (0xFCEE, "نم نه يم يه ـ\u064E\u0651 ـ\u064F\u0651 ـ\u0650\u0651 طى طي عى عي غى غي سى سي شى شي"),
   (0xFCFF, "حى حي جى جي خى خي صى صي ضى ضي شج شح شخ شم شر سر صر ضر طى طي عى عي غى غي سى سي شى شي"),
   (0xFD1B, "حى حي جى جي خى خي صى صي ضى ضي شج شح شخ شم شر سر صر ضر شج شح شخ شم سه شه طم سج سح سخ"),
   (0xFD37, "شج شح شخ طم ظم ا\u064B ا\u064B"), (0xFD50, "تجم تحج تحج تحم تخم تمج تمح تمخ جمح جمح"),
   (0xFD5A, "حمي حمى سحج سجح سجى سمح سمح سمج سمم سمم صحح صحح صمم شحم شحم شجي شمخ شمخ شمم شمم ضحى"),
   (0xFD6F, "ضخم ضخم طمح طمح طمم طمي عجم عمم عمم عمى غمم غمي غمى فخم فخم قمح قمم لحم لحي لحى لجج"),
   (0xFD84, "لجج لخم لخم لمح لمح محج محم محي مجح مجم مخج مخم"), (0xFD92, "مجخ همج همم نحم نحى نجم"),
   (0xFD98, "نجم نجى نمي نمى يمم يمم بخي تجي تجى تخي تخى تمي تمى جمي جحى جمى سخى صحي شحي ضحي لجي"),
   (0xFDAD, "لمي يحي يجي يمي ممي قمي نحي قمح لحم عمي كمي نجح مخي لجم كمم لجم نجح جحي حجي مجي فمي"),
   (0xFDC2, "بحي كمم عجم صمم سخي نجي"), (0xFDF0, "صلے قلے الله اكبر محمد صلعم رسول عليه وسلم صلى"),
   (0xFE71, "ـ\u064B"), (0xFE77, "ـ\u064E"), (0xFE79, "ـ\u064F"), (0xFE7B, "ـ\u0650"),
   (0xFE7D, "ـ\u0651"), (0xFE7F, "ـ\u0652"),
   (0xFE81, "ا\u0653 ا\u0653 ا\u0654 ا\u0654 و\u0654 و\u0654 ا\u0655 ا\u0655 ي\u0654 ي\u0654"),
   (0xFE8B, "ي\u0654 ي\u0654"),
   (0xFEF5, "لا\u0653 لا\u0653 لا\u0654 لا\u0654 لا\u0655 لا\u0655 لا لا")]

end ContextLint.Text
