/-
Characters outside ASCII in host names: what the standard of international names says.

The classes cover the code points from U+0080 on without a gap.  Each run of code points of
one class is written as the letter of the class and, where the run is longer than one, its
length in hexadecimal.

The images are the ASCII texts that stand for other characters.  An entry gives a code
point, an equals sign and the bytes of the text in hexadecimal.  With a plus and a number it
is about so many code points, whose texts are single characters in order.
-/
namespace ZoneKeeper.HostName

/-- The classes of characters, as runs. -/
def classRuns : List String :=
  ["h21l7hlml2ulhl2m2hil2hm2lx3li17li7g18lg8igigigigigigigigigigigigigigigigigigigigigigigigig",
    "m2igig2igigigi3gigigigi2gigigigigigigigigigigigigigigigigigigigigigigi2gigigmgi2gigi2gi3g2",
    "i4gi2gi3g3i2gi2gigigi2gig2igi2gi3gigi2g3ig7i3m6igigigigigigigig2igigigigigigigigig2m3igi3g",
    "igigigigigigigigigigigigigigigigigigigigigigigigigigigigig7i2gi2g2igi4gigigigig61mim2i3m2",
    "l2g7leg2l6h6l2im3il9gl11j40v2jv2ij9uj20igigsligh3g3mih6isi3hihi2gi11hi9g23i8gigigigigigigi",
    "gigigigigigi3gi2ligi2g2i33g30igigigigigigigigigigigigigigigigig2j7igigigigigigigigigigigig",
    "igigigigigigigigigigigigigigigi2gigigigigigig2igigigigigigigigigigigigigigigigigigigigigig",
    "igigigigigigigigigigigigigigigigigigigigigigigigigighi26h2g2eig2lh2l3hj2dnjnj2nj2njh8n1bh4",
    "n6h11l2nl2nlnl2jbnhn3onp4opopo5p4odno7po2j15yaly2no2jp3nq4ofp12o26po2p9opopo2p2npj7hlj6n2",
    "j2lj4p2Jao3n2oneh2pjo3p5o4po9popopo2pj1bh2pobp3ofp2o4pop2o3p2o6n26jbnhenao21j9n2l4nh2jn18",
    "j4nj9nj3nj5h2nfhpo5p2opoapop3j3h2nhono4npop2h5p13n3on2o5poh7zj8oap3npo2p2o6pofnj18hj20kg36",
    "jkjgk3j8k4rk2gj7i8g2j2g1djk2hg8h2g2h2g16hg7hgh3g4h2jgk3j4h2k2h2k2rgh8kh4i2hig2j2h2gcl2g7l",
    "g2jh2j2khg6h4g2h2g16hg7hgihgihg2h2jhk3j2h4j2h2j2rh3jh7i3ghih7gaj2g3jghaj2khg9hg3hg16hg7hg2",
    "hg5h2jgk3j5hj2khk2rh2ghfg2j2h2gblh7gj6hjk2hg8h2g2h2g16hg7hg2hg5h2jgkjkj4h2k2h2k2rh7j2kh4i2",
    "hg3j2h2g12hajghg6h3g3hg4h3g2hghg2h3g2h3g3h3gch4k2jk2h3k3hk3rh2gh6khegdl8h5jk3jg8hg3hg17h",
    "g10h2jgj3k4hj3hj3rh7j2hg3hg2h2g2j2h2gah7gl7g2jk2g9hg3hg17hgahg5h2jgkIk5hIk2hk2jrh7k2h5g3h",
    "g2j2h2gahg2khcj2k2g9hg3hg29r2gk3j4hk3hk3rg2h4g3kgaj2h2g1ahjk2hg12h3g18hg9hgh2g7h3rh4k3j3hj",
    "hk8h6gah2k2ghcg30jgvj6rh4lg7j8gdh25g2hghg5hg18hghgajgvj6rj2gh2g5hghj7hgah2i2g2h20gcigbj2",
    "g1bjgjgjl4k2g3ig4hg4ig4ig4ig4igcig3h4j2vjv5j5kjvj2rgj2g5j6vj4hj4vj4vj4vj4vjcvj3hg8jg6hgd",
    "h25g2bk2j4kj6kr2k2j2g17k2j2g4j3gk3g2k7g3j4gdjk2j2k6jgkgak3jg2i26hih5ih2g2cig62u2ge8hg4h2g7",
    "hghg4h2g29hg4h2g21hg4h2g7hghg4h2gfhg39hg4h2g43h2j3g1dh3g10lah6g56h2i6h2lg27fhg1al2h3g59h7",
    "g12j2rwh9g13j2wg2h9g12j2hcgdhg3hj2hcg34u2kj7k8jk2j9rjg7lgjh2gah6lah6l7Kl3u5gah6G59h7g5j2",
    "G22jGh5g46hag1fhj3k4j2k3h4k2jk6j3h4lh3l2g28h2g5hbg2ch4g1ah6gbh3l22g17j2k2jh2g37kjkj7hrkjk2",
    "j8k6jah2jgah6gah6geh2j1ftfh2tch14j4kg2fjkj5kjk5jkwg8hg1dj9gcj2kg1ekj4k2j2wrj2g38jkj2k3jkj3",
    "w2h8g28k8j8k2j2h3gfh3g33iagh5i2bh2i3g8h8j3gjdkj7g4jg6jg2kj2gh5g2cmimgm2im8gmim6i3m3i3mgm2i",
    "mi3m3i2mi6m4i5gdig22imi3mi1ami4j40igigigigigigigigigigigigigigigigigigigigigigigigigigigig",
    "igigigigigigigigigigigigigigigigigigigigigigigigigigigigigigigigigigigigigigigigigigigigig",
    "igig5i2g2igigigigigigigigigigigigigigigigigigigigigigigigigigigigigigigigigigigigigigigigi",
    "gigigigigigigigig9i8g6h2i6h2g8i8g8i8g6h2i6h2g8hihihihig8i8gigigigigigigih2i30g2i3hgi6hih3",
    "i3hgi6h3g3ih2g2i4h4g3ig4i5h2mh2i3hgi6heul2h2lsl5hlch3lh8l3s2ls2l4mlhl8h3ldsl7hu5h5u6m2h2m7",
    "smfsm3hm4im8h3l8ml18ghej21h11mslh2ilsm5im4lm2l2m5l2m3lmlilmlmim2lm3im2q4mlmi4sl4m5l4g2x10",
    "m20g3ig5xl2h4l9cs2ls2lf8s2lbg45l1agl91g3h16lbh15m28h14m4fl1c1gl153g100l10csl67hm2l65sl97h2",
    "l20gl69i30g30igi3g2igigigi4gig2ig6m2i3gigigigigigigigigigigigigigigigigigigigigigigigigigi",
    "gigigigigigigigigigigigigigigigigigigigigigigig2l6igigj3igh5l7g26hgh5gh2g38h7igherg17h9g7h",
    "g7hg7hg7hg7hg7hg7hg7hj20l5eh22l1ahl4il53ihcid6h2blml2g3l19g9j4k2lg5sli3g2l3hg56h2j2h2g2il",
    "g5alg3ih5g2bhi33ui2ahg2ieg20l24g2hag10s1fhs24i4g8m10i1fgi31mfxcm4i88x19mai5m2im9i2m7im5imb",
    "i2m5i2m2im3im5im3i2hm3ihm10hm5i2x1fmg19c0l40g568dh3l37h9g13dl3g1ch14igigigigigigigigigigig",
    "igigigigigigigigigigigig2j4ljal2igigigigigigigigigigigigigigi2j2g50j2g6h8l22igigigigigigi",
    "g3igigigigigigigigigigigigigigigigigigigigigigigigigigigigigigigig8igigi2gigigigiglg2igig2",
    "igig3igigigigigigigigigigi5gi5gigigigigigigigi4gigi2gigigigigigigigih14m4ig2i2g8jg3rg4jg17",
    "k2j2kl4rh3g8l2h6G32Lgl4h8k2g32k10rjh8gch6j12gdjg26j8g19jbkwhbg1eh3j3kg2fjk2j4k2j2k2wgdhgb",
    "h4g7jg19hg29j6k2j2k2j2h9g3jg8jkh2gah2g1fkjkg32jgj3g2j2g5j2gjgh18g10kj2k2g5krhag6h2g6h2g6h9",
    "g7hg7hg2ci4g9il2h4i50g23k2jk2jk2gkrh2gah6g2ba4hcg17h4g31h2104i10eg2igig2iagigig2i2g3i44h2",
    "i6ah26m7hci5h5qjqamqdhq5hqhq2hq2hq6cn21q8bh6qdal12q40n2q36n7lh20qah2ql3u10msh2m2hs2h7j10h",
    "s2m6scl2h6m4sh2mh2msm4s2hm4h2mh2mh7qhnh3qhqhqhqhq7eh2uhm2hmhm9hmahmhmh3m1ah4m1dhm2s2ms4i38",
    "v2ui1eh3i6h2i6h2i6h2i3h3s3hs3hs7h11gchg1ahg13hg2hgfh2geh22g7bh5glgh4g2dh3g9l4dg2hldh3lh2f",
    "g2djh82g1dh3g31hfjJ1bh4g24h9g1eh5g26j5h5g1ehg25h4geh2ai28g76h2gah6i24h4g24h4g28h8g34hbgibh",
    "ifhi7hi2hgbhgfhg7hg2h3g34hcg137h9g16hag8h18gi5hi1emibhi9h45n6h2nhn2chn2h3nh2n17hn48h8n9h30",
    "n13hn2h5n21h3ln1ah5n1bh26n38h4n14h2n2fj3hj2h5j4n4hn3hn1dh2j3h4rn9h7n9h7n40h20o5pnpnp2n2Hp5",
    "o4Ho5po3pn2pj2h4o4pn7h9n36h3l7n16h2n1bh5n8opop3o3po2pop2oph7n4hcp4o2nh50n49h37q33hdn33h7n6",
    "Ho21poj4h8yah6n10q16h3z5n18h8n2hd0y1fhn2ahj2nh2n2h10po2no2h8n9h21z3j3n28h8o3po11njbo3pn5",
    "h16o4p2ocj4n4h26ono2p3nop2o2po2nop2on4poHh14n17h9kjkg35jerg7h4l14garg2j2gh9rj2kg2dk3j4k2rj",
    "g2hg4jhdg19h7gah6j3g24j5kj6r2hgfk2gh8g23jg3h9j2kg30k3j9kwg8j4gkjg10hg14hbg12hg19k3j3k2jwj2",
    "g6jg2jh3eg7hghg4hgfhgbh6g2fjk3j7rh5gah6j2k2hg8h2g2h2g16hg7hg2hg5hj2gk2jk4h2k2h2k2wh2gh6kh5",
    "g5k2h2j7h3j5hbgahgh2ghg26hg4t6hgh2ghg4hg2tgtgtg3hg2h8t2h1dg35k3j8k2rj2kjg15hgjg3h1eg30k3j6",
    "kjk4j2krjg4h8gaha6g2fk3j4h2k4j2krjg1bj2h22g30k3j8k2jkrjg4hbgah6ldh13g2bjkjk2j6wjg2h6gah6",
    "g14h1cg1bh2jMjk2j4kj4rh4g17hb9g2ck3j9krjgh64i20g33hcg8h2gh2g8hg2hg18k6hk2h2j2wrgkgkjg3h9ga",
    "h46g8h2g27k3j4h2j2k4rg3kh1bgj6I2j2g28jrj4kgj4g8rh8gj6k2j3g2ejdkjrg9hdg49h7gah56tgt3gtgh58",
    "g22hegah6g9hg25kj7hj6kNg6hag1dh3g20h2j16hkj7kj2kj2h49g7hg2hg26j6h3jhj2hj5r2gjh8gah6g6hg2h",
    "g20k5hj2hk2jkrgh7gah6g2ch4gahf6g13j2k2g2h7j2gkgdhg22k2j5h3k2jwrg17th55ghfg15l1dhdg39bh66",
    "g6fhg5hbgc4ha4cg63hdg430h10jg6jfhagf9bh5g247h1ab9g1etcg3t3gah6c6g239h7g1fhgah4g51hgah6g1e",
    "h2j5ghag30j7gfhagahg7hg15h5g13h1b0g3ahc6i20g3bh5i19h2g19h2cg4bh4jgk37h7j4gdh40g2lgjhbk2g5",
    "h9g1cd6h29g20h61g73h21fdg4hg7hg2hg123hfgh1dg3h2gheg4h8g18ch904g6bh5gdh3g9h7gah2gj2gu4hf5c",
    "gd6m24g3h3g1b4h6g17hfg11hfj2eh2j17h9g74h3cgf6hag27h2g35i7k2j3g3k6u8j8g2j7g1ej4gdi6g28l2h15",
    "l42j3lh7ag14hcg14hcl57h9g19h87m55hm47hm2h2mh2m2h2m4hmchmhm7hm41hm4h2m8hm7hm1chm4hm5hmh3m7h",
    "m152i2h2i19si19si1fsi19si1fsi19si1fsi19si1fsi19si8h2m32g200j37g4j32g8jgejg7hfj5hjfh450g1f",
    "h6g6hd5j7hj11h2j7hj2hj5h5i3eh21jh70g2dh3j7g7h2gah4g2h140g1ejh11g2cj4gah5lh1d0g1cj4gahd6g1e",
    "t2gbh4ghc0g1fhg3tg2tg7t2g5th8g2he0g7hg4hg2hgfhnc5h2n9j7h29q22o22j7zh4nah4n2h311n44h4cn3d",
    "hc2q4hq1bhq2hqh2qhqahq4hqhqh6qh4qhqhqhq3hq2hqh2qhqhqhqhqhq2hqh2q4hq7hq4hq4hqhqahq11h5q3hq5",
    "hq11h34l2h10el2ch4l64hclfh2lfhlfhl25hbmal5m1asm4lm20g1am3l3g20mg1clh38g1ai3hdi2ch4s9h7i2he",
    "l6h9al3d8gh3l11h3ldh3l77g4l5fh6lch4lhflch4l38h8lah6l28h8l1eh2l2gah4g2heg9h27l154g4h8leh2ld",
    "h3l9g2h3g2l2egl7ghgh4glegh2gl9g2h4gl9h7l93hl37g25magh405ga6e0h20g111eh2g168eh2g1d31hfg26e",
    "h9a2i21eh5e2g134bh5g212ahacc86uf0h2fe10"]

/-- The texts of characters that stand for ASCII. -/
def imageEntries : List String :=
  ["aa=61 b2+2=32 b9=31 ba=6f 132=696a 133=696a 17f=73 1c7=6c6a 1c8=6c6a 1c9=6c6a 1ca=6e6a",
    "1cb=6e6a 1cc=6e6a 1f1=647a 1f2=647a 1f3=647a 2b0=68 2b2=6a 2b3=72 2b7=77 2b8=79 2e1=6c",
    "2e2=73 2e3=78 37e=3b 1d2c=61 1d2e=62 1d30+2=64 1d33+8=67 1d3c=6f 1d3e=70 1d3f=72",
    "1d40+2=74 1d42=77 1d43=61 1d47=62 1d48+2=64 1d4d=67 1d4f=6b 1d50=6d 1d52=6f 1d56=70",
    "1d57+2=74 1d5b=76 1d62=69 1d63=72 1d64+2=75 1d9c=63 1da0=66 1dbb=7a 1fef=60 203c=2121",
    "2070=30 2071=69 2074+6=34 207a=2b 207c=3d 207d+2=28 207f=6e 2080+a=30 208a=2b 208c=3d",
    "208d+2=28 2090=61 2091=65 2092=6f 2093=78 2095=68 2096+4=6b 209a=70 209b+2=73 20a8=7273",
    "2102=63 210a+2=67 210c=68 210d=68 210e=68 2110=69 2111=69 2112=6c 2113=6c 2115=6e",
    "2116=6e6f 2119+3=70 211c=72 211d=72 2120=736d 2121=74656c 2122=746d 2124=7a 2128=7a",
    "212a=6b 212c+2=62 212f=65 2130+2=65 2133=6d 2134=6f 2139=69 213b=666178 2145=64 2146+2=64",
    "2148+2=69 2160=69 2161=6969 2162=696969 2163=6976 2164=76 2165=7669 2166=766969",
    "2167=76696969 2168=6978 2169=78 216a=7869 216b=786969 216c=6c 216d+2=63 216f=6d 2170=69",
    "2171=6969 2172=696969 2173=6976 2174=76 2175=7669 2176=766969 2177=76696969 2178=6978",
    "2179=78 217a=7869 217b=786969 217c=6c 217d+2=63 217f=6d 2460+9=31 2469=3130 246a=3131",
    "246b=3132 246c=3133 246d=3134 246e=3135 246f=3136 2470=3137 2471=3138 2472=3139 2473=3230",
    "2474=283129 2475=283229 2476=283329 2477=283429 2478=283529 2479=283629 247a=283729",
    "247b=283829 247c=283929 247d=28313029 247e=28313129 247f=28313229 2480=28313329",
    "2481=28313429 2482=28313529 2483=28313629 2484=28313729 2485=28313829 2486=28313929",
    "2487=28323029 249c=286129 249d=286229 249e=286329 249f=286429 24a0=286529 24a1=286629",
    "24a2=286729 24a3=286829 24a4=286929 24a5=286a29 24a6=286b29 24a7=286c29 24a8=286d29",
    "24a9=286e29 24aa=286f29 24ab=287029 24ac=287129 24ad=287229 24ae=287329 24af=287429",
    "24b0=287529 24b1=287629 24b2=287729 24b3=287829 24b4=287929 24b5=287a29 24b6+1a=61",
    "24d0+1a=61 24ea=30 2a75=3d3d 2a76=3d3d3d 2c7c=6a 2c7d=76 3002=2e 3250=707465 3251=3231",
    "3252=3232 3253=3233 3254=3234 3255=3235 3256=3236 3257=3237 3258=3238 3259=3239 325a=3330",
    "325b=3331 325c=3332 325d=3333 325e=3334 325f=3335 32b1=3336 32b2=3337 32b3=3338 32b4=3339",
    "32b5=3430 32b6=3431 32b7=3432 32b8=3433 32b9=3434 32ba=3435 32bb=3436 32bc=3437 32bd=3438",
    "32be=3439 32bf=3530 32cc=6867 32cd=657267 32ce=6576 32cf=6c7464 3371=687061 3372=6461",
    "3373=6175 3374=626172 3375=6f76 3376=7063 3377=646d 3378=646d32 3379=646d33 337a=6975",
    "3380=7061 3381=6e61 3383=6d61 3384=6b61 3385=6b62 3386=6d62 3387=6762 3388=63616c",
    "3389=6b63616c 338a=7066 338b=6e66 338e=6d67 338f=6b67 3390=687a 3391=6b687a 3392=6d687a",
    "3393=67687a 3394=74687a 3396=6d6c 3397=646c 3398=6b6c 3399=666d 339a=6e6d 339c=6d6d",
    "339d=636d 339e=6b6d 339f=6d6d32 33a0=636d32 33a1=6d32 33a2=6b6d32 33a3=6d6d33 33a4=636d33",
    "33a5=6d33 33a6=6b6d33 33a9=7061 33aa=6b7061 33ab=6d7061 33ac=677061 33ad=726164 33b0=7073",
    "33b1=6e73 33b3=6d73 33b4=7076 33b5=6e76 33b7=6d76 33b8=6b76 33b9=6d76 33ba=7077 33bb=6e77",
    "33bd=6d77 33be=6b77 33bf=6d77 33c3=6271 33c4=6363 33c5=6364 33c8=6462 33c9=6779 33ca=6861",
    "33cb=6870 33cc=696e 33cd=6b6b 33ce=6b6d 33cf=6b74 33d0=6c6d 33d1=6c6e 33d2=6c6f67",
    "33d3=6c78 33d4=6d62 33d5=6d696c 33d6=6d6f6c 33d7=7068 33d9=70706d 33da=7072 33db=7372",
    "33dc=7376 33dd=7762 33ff=67616c a7f1=73 a7f2=63 a7f3=66 a7f4=71 fb00=6666 fb01=6669",
    "fb02=666c fb03=666669 fb04=66666c fb05=7374 fb06=7374 fb29=2b fe10=2c fe14=3b fe15=21",
    "fe33=5f fe34=5f fe35+2=28 fe37=7b fe38=7d fe4d=5f fe4e=5f fe4f=5f fe50=2c fe54=3b fe57=21",
    "fe59+2=28 fe5b=7b fe5c=7d fe60=26 fe61+2=2a fe63=2d fe66=3d fe69=24 ff01+2=21 ff04=24",
    "ff06+9=26 ff10+a=30 ff1b=3b ff1d=3d ff21+1a=61 ff3f+1d=5f ff5d+2=7d ff61=2e 107a5=71",
    "1ccd6+1a=61 1ccf0+a=30 1d400+1a=61 1d41a+1a=61 1d434+1a=61 1d44e+7=61 1d456+12=69",
    "1d468+1a=61 1d482+1a=61 1d49c=61 1d49e+2=63 1d4a2=67 1d4a5+2=6a 1d4a9+4=6e 1d4ae+8=73",
    "1d4b6+4=61 1d4bb=66 1d4bd+7=68 1d4c5+b=70 1d4d0+1a=61 1d4ea+1a=61 1d504+2=61 1d507+4=64",
    "1d50d+8=6a 1d516+7=73 1d51e+1a=61 1d538+2=61 1d53b+4=64 1d540+5=69 1d546=6f 1d54a+7=73",
    "1d552+1a=61 1d56c+1a=61 1d586+1a=61 1d5a0+1a=61 1d5ba+1a=61 1d5d4+1a=61 1d5ee+1a=61",
    "1d608+1a=61 1d622+1a=61 1d63c+1a=61 1d656+1a=61 1d670+1a=61 1d68a+1a=61 1d7ce+a=30",
    "1d7d8+a=30 1d7e2+a=30 1d7ec+a=30 1d7f6+a=30 1f101=302c 1f102=312c 1f103=322c 1f104=332c",
    "1f105=342c 1f106=352c 1f107=362c 1f108=372c 1f109=382c 1f10a=392c 1f110=286129",
    "1f111=286229 1f112=286329 1f113=286429 1f114=286529 1f115=286629 1f116=286729",
    "1f117=286829 1f118=286929 1f119=286a29 1f11a=286b29 1f11b=286c29 1f11c=286d29",
    "1f11d=286e29 1f11e=286f29 1f11f=287029 1f120=287129 1f121=287229 1f122=287329",
    "1f123=287429 1f124=287529 1f125=287629 1f126=287729 1f127=287829 1f128=287929",
    "1f129=287a29 1f12b=63 1f12c=72 1f12d=6364 1f12e=777a 1f130+1a=61 1f14a=6876 1f14b=6d76",
    "1f14c=7364 1f14d=7373 1f14e=707076 1f14f=7763 1f16a=6d63 1f16b=6d64 1f16c=6d72 1f190=646a",
    "1fbf0+a=30"]

end ZoneKeeper.HostName
