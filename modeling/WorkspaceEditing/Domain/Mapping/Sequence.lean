import WorkspaceEditing.Unicode.CharSet

/-!
# Characters that stand for several

Ligatures, fractions, circled numbers and the like stand for the characters that they are made of
in a domain name.

## Main definitions

* `Domain.sequences` — each such character with what it stands for.
-/

namespace WorkspaceEditing

namespace Domain

/-- The characters that stand for several, as they are written: `132>69.6a` says that `U+0132`
stands for `U+0069` and `U+006A`. -/
def sequenceTable : List String := [
  "a8>20.308 af>20.304 b4>20.301 b8>20.327 bc>31.2044.34 bd>31.2044.32 be>33.2044.34 130>69.307",
  "132>69.6a 133>69.6a 13f>6c.b7 140>6c.b7 149>2bc.6e 1c4>64.17e 1c5>64.17e 1c6>64.17e 1c7>6c.6a",
  "1c8>6c.6a 1c9>6c.6a 1ca>6e.6a 1cb>6e.6a 1cc>6e.6a 1f1>64.7a 1f2>64.7a 1f3>64.7a 2d8>20.306",
  "2d9>20.307 2da>20.30a 2db>20.328 2dc>20.303 2dd>20.30b 344>308.301 37a>20.3b9 384>20.301",
  "385>20.308.301 587>565.582 675>627.674 676>648.674 677>6c7.674 678>64a.674 958>915.93c",
  "959>916.93c 95a>917.93c 95b>91c.93c 95c>921.93c 95d>922.93c 95e>92b.93c 95f>92f.93c",
  "9dc>9a1.9bc 9dd>9a2.9bc 9df>9af.9bc a33>a32.a3c a36>a38.a3c a59>a16.a3c a5a>a17.a3c",
  "a5b>a1c.a3c a5e>a2b.a3c b5c>b21.b3c b5d>b22.b3c e33>e4d.e32 eb3>ecd.eb2 edc>eab.e99",
  "edd>eab.ea1 f43>f42.fb7 f4d>f4c.fb7 f52>f51.fb7 f57>f56.fb7 f5c>f5b.fb7 f69>f40.fb5",
  "f73>f71.f72 f75>f71.f74 f76>fb2.f80 f77>fb2.f71.f80 f78>fb3.f80 f79>fb3.f71.f80 f81>f71.f80",
  "f93>f92.fb7 f9d>f9c.fb7 fa2>fa1.fb7 fa7>fa6.fb7 fac>fab.fb7 fb9>f90.fb5 1e9a>61.2be",
  "1f80>1f00.3b9 1f81>1f01.3b9 1f82>1f02.3b9 1f83>1f03.3b9 1f84>1f04.3b9 1f85>1f05.3b9",
  "1f86>1f06.3b9 1f87>1f07.3b9 1f88>1f00.3b9 1f89>1f01.3b9 1f8a>1f02.3b9 1f8b>1f03.3b9",
  "1f8c>1f04.3b9 1f8d>1f05.3b9 1f8e>1f06.3b9 1f8f>1f07.3b9 1f90>1f20.3b9 1f91>1f21.3b9",
  "1f92>1f22.3b9 1f93>1f23.3b9 1f94>1f24.3b9 1f95>1f25.3b9 1f96>1f26.3b9 1f97>1f27.3b9",
  "1f98>1f20.3b9 1f99>1f21.3b9 1f9a>1f22.3b9 1f9b>1f23.3b9 1f9c>1f24.3b9 1f9d>1f25.3b9",
  "1f9e>1f26.3b9 1f9f>1f27.3b9 1fa0>1f60.3b9 1fa1>1f61.3b9 1fa2>1f62.3b9 1fa3>1f63.3b9",
  "1fa4>1f64.3b9 1fa5>1f65.3b9 1fa6>1f66.3b9 1fa7>1f67.3b9 1fa8>1f60.3b9 1fa9>1f61.3b9",
  "1faa>1f62.3b9 1fab>1f63.3b9 1fac>1f64.3b9 1fad>1f65.3b9 1fae>1f66.3b9 1faf>1f67.3b9",
  "1fb2>1f70.3b9 1fb3>3b1.3b9 1fb4>3ac.3b9 1fb7>1fb6.3b9 1fbc>3b1.3b9 1fbd>20.313 1fbf>20.313",
  "1fc0>20.342 1fc1>20.308.342 1fc2>1f74.3b9 1fc3>3b7.3b9 1fc4>3ae.3b9 1fc7>1fc6.3b9",
  "1fcc>3b7.3b9 1fcd>20.313.300 1fce>20.313.301 1fcf>20.313.342 1fdd>20.314.300 1fde>20.314.301",
  "1fdf>20.314.342 1fed>20.308.300 1fee>20.308.301 1ff2>1f7c.3b9 1ff3>3c9.3b9 1ff4>3ce.3b9",
  "1ff7>1ff6.3b9 1ffc>3c9.3b9 1ffd>20.301 1ffe>20.314 2017>20.333 2033>2032.2032",
  "2034>2032.2032.2032 2036>2035.2035 2037>2035.2035.2035 203c>21.21 203e>20.305 2047>3f.3f",
  "2048>3f.21 2049>21.3f 2057>2032.2032.2032.2032 20a8>72.73 2100>61.2f.63 2101>61.2f.73",
  "2103>b0.63 2105>63.2f.6f 2106>63.2f.75 2109>b0.66 2116>6e.6f 2120>73.6d 2121>74.65.6c",
  "2122>74.6d 213b>66.61.78 2150>31.2044.37 2151>31.2044.39 2152>31.2044.31.30 2153>31.2044.33",
  "2154>32.2044.33 2155>31.2044.35 2156>32.2044.35 2157>33.2044.35 2158>34.2044.35",
  "2159>31.2044.36 215a>35.2044.36 215b>31.2044.38 215c>33.2044.38 215d>35.2044.38",
  "215e>37.2044.38 215f>31.2044 2161>69.69 2162>69.69.69 2163>69.76 2165>76.69 2166>76.69.69",
  "2167>76.69.69.69 2168>69.78 216a>78.69 216b>78.69.69 2171>69.69 2172>69.69.69 2173>69.76",
  "2175>76.69 2176>76.69.69 2177>76.69.69.69 2178>69.78 217a>78.69 217b>78.69.69 2189>30.2044.33",
  "222c>222b.222b 222d>222b.222b.222b 222f>222e.222e 2230>222e.222e.222e 2469>31.30 246a>31.31",
  "246b>31.32 246c>31.33 246d>31.34 246e>31.35 246f>31.36 2470>31.37 2471>31.38 2472>31.39",
  "2473>32.30 2474>28.31.29 2475>28.32.29 2476>28.33.29 2477>28.34.29 2478>28.35.29",
  "2479>28.36.29 247a>28.37.29 247b>28.38.29 247c>28.39.29 247d>28.31.30.29 247e>28.31.31.29",
  "247f>28.31.32.29 2480>28.31.33.29 2481>28.31.34.29 2482>28.31.35.29 2483>28.31.36.29",
  "2484>28.31.37.29 2485>28.31.38.29 2486>28.31.39.29 2487>28.32.30.29 249c>28.61.29",
  "249d>28.62.29 249e>28.63.29 249f>28.64.29 24a0>28.65.29 24a1>28.66.29 24a2>28.67.29",
  "24a3>28.68.29 24a4>28.69.29 24a5>28.6a.29 24a6>28.6b.29 24a7>28.6c.29 24a8>28.6d.29",
  "24a9>28.6e.29 24aa>28.6f.29 24ab>28.70.29 24ac>28.71.29 24ad>28.72.29 24ae>28.73.29",
  "24af>28.74.29 24b0>28.75.29 24b1>28.76.29 24b2>28.77.29 24b3>28.78.29 24b4>28.79.29",
  "24b5>28.7a.29 2a0c>222b.222b.222b.222b 2a74>3a.3a.3d 2a75>3d.3d 2a76>3d.3d.3d 2adc>2add.338",
  "309b>20.3099 309c>20.309a 309f>3088.308a 30ff>30b3.30c8 3200>28.1100.29 3201>28.1102.29",
  "3202>28.1103.29 3203>28.1105.29 3204>28.1106.29 3205>28.1107.29 3206>28.1109.29",
  "3207>28.110b.29 3208>28.110c.29 3209>28.110e.29 320a>28.110f.29 320b>28.1110.29",
  "320c>28.1111.29 320d>28.1112.29 320e>28.ac00.29 320f>28.b098.29 3210>28.b2e4.29",
  "3211>28.b77c.29 3212>28.b9c8.29 3213>28.bc14.29 3214>28.c0ac.29 3215>28.c544.29",
  "3216>28.c790.29 3217>28.cc28.29 3218>28.ce74.29 3219>28.d0c0.29 321a>28.d30c.29",
  "321b>28.d558.29 321c>28.c8fc.29 321d>28.c624.c804.29 321e>28.c624.d6c4.29 3220>28.4e00.29",
  "3221>28.4e8c.29 3222>28.4e09.29 3223>28.56db.29 3224>28.4e94.29 3225>28.516d.29",
  "3226>28.4e03.29 3227>28.516b.29 3228>28.4e5d.29 3229>28.5341.29 322a>28.6708.29",
  "322b>28.706b.29 322c>28.6c34.29 322d>28.6728.29 322e>28.91d1.29 322f>28.571f.29",
  "3230>28.65e5.29 3231>28.682a.29 3232>28.6709.29 3233>28.793e.29 3234>28.540d.29",
  "3235>28.7279.29 3236>28.8ca1.29 3237>28.795d.29 3238>28.52b4.29 3239>28.4ee3.29",
  "323a>28.547c.29 323b>28.5b66.29 323c>28.76e3.29 323d>28.4f01.29 323e>28.8cc7.29",
  "323f>28.5354.29 3240>28.796d.29 3241>28.4f11.29 3242>28.81ea.29 3243>28.81f3.29 3250>70.74.65",
  "3251>32.31 3252>32.32 3253>32.33 3254>32.34 3255>32.35 3256>32.36 3257>32.37 3258>32.38",
  "3259>32.39 325a>33.30 325b>33.31 325c>33.32 325d>33.33 325e>33.34 325f>33.35 327c>cc38.ace0",
  "327d>c8fc.c758 32b1>33.36 32b2>33.37 32b3>33.38 32b4>33.39 32b5>34.30 32b6>34.31 32b7>34.32",
  "32b8>34.33 32b9>34.34 32ba>34.35 32bb>34.36 32bc>34.37 32bd>34.38 32be>34.39 32bf>35.30",
  "32c0>31.6708 32c1>32.6708 32c2>33.6708 32c3>34.6708 32c4>35.6708 32c5>36.6708 32c6>37.6708",
  "32c7>38.6708 32c8>39.6708 32c9>31.30.6708 32ca>31.31.6708 32cb>31.32.6708 32cc>68.67",
  "32cd>65.72.67 32ce>65.76 32cf>6c.74.64 32ff>4ee4.548c 3300>30a2.30d1.30fc.30c8",
  "3301>30a2.30eb.30d5.30a1 3302>30a2.30f3.30da.30a2 3303>30a2.30fc.30eb",
  "3304>30a4.30cb.30f3.30b0 3305>30a4.30f3.30c1 3306>30a6.30a9.30f3",
  "3307>30a8.30b9.30af.30fc.30c9 3308>30a8.30fc.30ab.30fc 3309>30aa.30f3.30b9",
  "330a>30aa.30fc.30e0 330b>30ab.30a4.30ea 330c>30ab.30e9.30c3.30c8 330d>30ab.30ed.30ea.30fc",
  "330e>30ac.30ed.30f3 330f>30ac.30f3.30de 3310>30ae.30ac 3311>30ae.30cb.30fc",
  "3312>30ad.30e5.30ea.30fc 3313>30ae.30eb.30c0.30fc 3314>30ad.30ed",
  "3315>30ad.30ed.30b0.30e9.30e0 3316>30ad.30ed.30e1.30fc.30c8.30eb",
  "3317>30ad.30ed.30ef.30c3.30c8 3318>30b0.30e9.30e0 3319>30b0.30e9.30e0.30c8.30f3",
  "331a>30af.30eb.30bc.30a4.30ed 331b>30af.30ed.30fc.30cd 331c>30b1.30fc.30b9",
  "331d>30b3.30eb.30ca 331e>30b3.30fc.30dd 331f>30b5.30a4.30af.30eb",
  "3320>30b5.30f3.30c1.30fc.30e0 3321>30b7.30ea.30f3.30b0 3322>30bb.30f3.30c1",
  "3323>30bb.30f3.30c8 3324>30c0.30fc.30b9 3325>30c7.30b7 3326>30c9.30eb 3327>30c8.30f3",
  "3328>30ca.30ce 3329>30ce.30c3.30c8 332a>30cf.30a4.30c4 332b>30d1.30fc.30bb.30f3.30c8",
  "332c>30d1.30fc.30c4 332d>30d0.30fc.30ec.30eb 332e>30d4.30a2.30b9.30c8.30eb",
  "332f>30d4.30af.30eb 3330>30d4.30b3 3331>30d3.30eb 3332>30d5.30a1.30e9.30c3.30c9",
  "3333>30d5.30a3.30fc.30c8 3334>30d6.30c3.30b7.30a7.30eb 3335>30d5.30e9.30f3",
  "3336>30d8.30af.30bf.30fc.30eb 3337>30da.30bd 3338>30da.30cb.30d2 3339>30d8.30eb.30c4",
  "333a>30da.30f3.30b9 333b>30da.30fc.30b8 333c>30d9.30fc.30bf 333d>30dd.30a4.30f3.30c8",
  "333e>30dc.30eb.30c8 333f>30db.30f3 3340>30dd.30f3.30c9 3341>30db.30fc.30eb",
  "3342>30db.30fc.30f3 3343>30de.30a4.30af.30ed 3344>30de.30a4.30eb 3345>30de.30c3.30cf",
  "3346>30de.30eb.30af 3347>30de.30f3.30b7.30e7.30f3 3348>30df.30af.30ed.30f3 3349>30df.30ea",
  "334a>30df.30ea.30d0.30fc.30eb 334b>30e1.30ac 334c>30e1.30ac.30c8.30f3",
  "334d>30e1.30fc.30c8.30eb 334e>30e4.30fc.30c9 334f>30e4.30fc.30eb 3350>30e6.30a2.30f3",
  "3351>30ea.30c3.30c8.30eb 3352>30ea.30e9 3353>30eb.30d4.30fc 3354>30eb.30fc.30d6.30eb",
  "3355>30ec.30e0 3356>30ec.30f3.30c8.30b2.30f3 3357>30ef.30c3.30c8 3358>30.70b9 3359>31.70b9",
  "335a>32.70b9 335b>33.70b9 335c>34.70b9 335d>35.70b9 335e>36.70b9 335f>37.70b9 3360>38.70b9",
  "3361>39.70b9 3362>31.30.70b9 3363>31.31.70b9 3364>31.32.70b9 3365>31.33.70b9 3366>31.34.70b9",
  "3367>31.35.70b9 3368>31.36.70b9 3369>31.37.70b9 336a>31.38.70b9 336b>31.39.70b9",
  "336c>32.30.70b9 336d>32.31.70b9 336e>32.32.70b9 336f>32.33.70b9 3370>32.34.70b9 3371>68.70.61",
  "3372>64.61 3373>61.75 3374>62.61.72 3375>6f.76 3376>70.63 3377>64.6d 3378>64.6d.32",
  "3379>64.6d.33 337a>69.75 337b>5e73.6210 337c>662d.548c 337d>5927.6b63 337e>660e.6cbb",
  "337f>682a.5f0f.4f1a.793e 3380>70.61 3381>6e.61 3382>3bc.61 3383>6d.61 3384>6b.61 3385>6b.62",
  "3386>6d.62 3387>67.62 3388>63.61.6c 3389>6b.63.61.6c 338a>70.66 338b>6e.66 338c>3bc.66",
  "338d>3bc.67 338e>6d.67 338f>6b.67 3390>68.7a 3391>6b.68.7a 3392>6d.68.7a 3393>67.68.7a",
  "3394>74.68.7a 3395>3bc.6c 3396>6d.6c 3397>64.6c 3398>6b.6c 3399>66.6d 339a>6e.6d 339b>3bc.6d",
  "339c>6d.6d 339d>63.6d 339e>6b.6d 339f>6d.6d.32 33a0>63.6d.32 33a1>6d.32 33a2>6b.6d.32",
  "33a3>6d.6d.33 33a4>63.6d.33 33a5>6d.33 33a6>6b.6d.33 33a7>6d.2215.73 33a8>6d.2215.73.32",
  "33a9>70.61 33aa>6b.70.61 33ab>6d.70.61 33ac>67.70.61 33ad>72.61.64 33ae>72.61.64.2215.73",
  "33af>72.61.64.2215.73.32 33b0>70.73 33b1>6e.73 33b2>3bc.73 33b3>6d.73 33b4>70.76 33b5>6e.76",
  "33b6>3bc.76 33b7>6d.76 33b8>6b.76 33b9>6d.76 33ba>70.77 33bb>6e.77 33bc>3bc.77 33bd>6d.77",
  "33be>6b.77 33bf>6d.77 33c0>6b.3c9 33c1>6d.3c9 33c3>62.71 33c4>63.63 33c5>63.64",
  "33c6>63.2215.6b.67 33c8>64.62 33c9>67.79 33ca>68.61 33cb>68.70 33cc>69.6e 33cd>6b.6b",
  "33ce>6b.6d 33cf>6b.74 33d0>6c.6d 33d1>6c.6e 33d2>6c.6f.67 33d3>6c.78 33d4>6d.62 33d5>6d.69.6c",
  "33d6>6d.6f.6c 33d7>70.68 33d9>70.70.6d 33da>70.72 33db>73.72 33dc>73.76 33dd>77.62",
  "33de>76.2215.6d 33df>61.2215.6d 33e0>31.65e5 33e1>32.65e5 33e2>33.65e5 33e3>34.65e5",
  "33e4>35.65e5 33e5>36.65e5 33e6>37.65e5 33e7>38.65e5 33e8>39.65e5 33e9>31.30.65e5",
  "33ea>31.31.65e5 33eb>31.32.65e5 33ec>31.33.65e5 33ed>31.34.65e5 33ee>31.35.65e5",
  "33ef>31.36.65e5 33f0>31.37.65e5 33f1>31.38.65e5 33f2>31.39.65e5 33f3>32.30.65e5",
  "33f4>32.31.65e5 33f5>32.32.65e5 33f6>32.33.65e5 33f7>32.34.65e5 33f8>32.35.65e5",
  "33f9>32.36.65e5 33fa>32.37.65e5 33fb>32.38.65e5 33fc>32.39.65e5 33fd>33.30.65e5",
  "33fe>33.31.65e5 33ff>67.61.6c fb00>66.66 fb01>66.69 fb02>66.6c fb03>66.66.69 fb04>66.66.6c",
  "fb05>73.74 fb06>73.74 fb13>574.576 fb14>574.565 fb15>574.56b fb16>57e.576 fb17>574.56d",
  "fb1d>5d9.5b4 fb1f>5f2.5b7 fb2a>5e9.5c1 fb2b>5e9.5c2 fb2c>5e9.5bc.5c1 fb2d>5e9.5bc.5c2",
  "fb2e>5d0.5b7 fb2f>5d0.5b8 fb30>5d0.5bc fb31>5d1.5bc fb32>5d2.5bc fb33>5d3.5bc fb34>5d4.5bc",
  "fb35>5d5.5bc fb36>5d6.5bc fb38>5d8.5bc fb39>5d9.5bc fb3a>5da.5bc fb3b>5db.5bc fb3c>5dc.5bc",
  "fb3e>5de.5bc fb40>5e0.5bc fb41>5e1.5bc fb43>5e3.5bc fb44>5e4.5bc fb46>5e6.5bc fb47>5e7.5bc",
  "fb48>5e8.5bc fb49>5e9.5bc fb4a>5ea.5bc fb4b>5d5.5b9 fb4c>5d1.5bf fb4d>5db.5bf fb4e>5e4.5bf",
  "fb4f>5d0.5dc fbdd>6c7.674 fbea>626.627 fbeb>626.627 fbec>626.6d5 fbed>626.6d5 fbee>626.648",
  "fbef>626.648 fbf0>626.6c7 fbf1>626.6c7 fbf2>626.6c6 fbf3>626.6c6 fbf4>626.6c8 fbf5>626.6c8",
  "fbf6>626.6d0 fbf7>626.6d0 fbf8>626.6d0 fbf9>626.649 fbfa>626.649 fbfb>626.649 fc00>626.62c",
  "fc01>626.62d fc02>626.645 fc03>626.649 fc04>626.64a fc05>628.62c fc06>628.62d fc07>628.62e",
  "fc08>628.645 fc09>628.649 fc0a>628.64a fc0b>62a.62c fc0c>62a.62d fc0d>62a.62e fc0e>62a.645",
  "fc0f>62a.649 fc10>62a.64a fc11>62b.62c fc12>62b.645 fc13>62b.649 fc14>62b.64a fc15>62c.62d",
  "fc16>62c.645 fc17>62d.62c fc18>62d.645 fc19>62e.62c fc1a>62e.62d fc1b>62e.645 fc1c>633.62c",
  "fc1d>633.62d fc1e>633.62e fc1f>633.645 fc20>635.62d fc21>635.645 fc22>636.62c fc23>636.62d",
  "fc24>636.62e fc25>636.645 fc26>637.62d fc27>637.645 fc28>638.645 fc29>639.62c fc2a>639.645",
  "fc2b>63a.62c fc2c>63a.645 fc2d>641.62c fc2e>641.62d fc2f>641.62e fc30>641.645 fc31>641.649",
  "fc32>641.64a fc33>642.62d fc34>642.645 fc35>642.649 fc36>642.64a fc37>643.627 fc38>643.62c",
  "fc39>643.62d fc3a>643.62e fc3b>643.644 fc3c>643.645 fc3d>643.649 fc3e>643.64a fc3f>644.62c",
  "fc40>644.62d fc41>644.62e fc42>644.645 fc43>644.649 fc44>644.64a fc45>645.62c fc46>645.62d",
  "fc47>645.62e fc48>645.645 fc49>645.649 fc4a>645.64a fc4b>646.62c fc4c>646.62d fc4d>646.62e",
  "fc4e>646.645 fc4f>646.649 fc50>646.64a fc51>647.62c fc52>647.645 fc53>647.649 fc54>647.64a",
  "fc55>64a.62c fc56>64a.62d fc57>64a.62e fc58>64a.645 fc59>64a.649 fc5a>64a.64a fc5b>630.670",
  "fc5c>631.670 fc5d>649.670 fc5e>20.64c.651 fc5f>20.64d.651 fc60>20.64e.651 fc61>20.64f.651",
  "fc62>20.650.651 fc63>20.651.670 fc64>626.631 fc65>626.632 fc66>626.645 fc67>626.646",
  "fc68>626.649 fc69>626.64a fc6a>628.631 fc6b>628.632 fc6c>628.645 fc6d>628.646 fc6e>628.649",
  "fc6f>628.64a fc70>62a.631 fc71>62a.632 fc72>62a.645 fc73>62a.646 fc74>62a.649 fc75>62a.64a",
  "fc76>62b.631 fc77>62b.632 fc78>62b.645 fc79>62b.646 fc7a>62b.649 fc7b>62b.64a fc7c>641.649",
  "fc7d>641.64a fc7e>642.649 fc7f>642.64a fc80>643.627 fc81>643.644 fc82>643.645 fc83>643.649",
  "fc84>643.64a fc85>644.645 fc86>644.649 fc87>644.64a fc88>645.627 fc89>645.645 fc8a>646.631",
  "fc8b>646.632 fc8c>646.645 fc8d>646.646 fc8e>646.649 fc8f>646.64a fc90>649.670 fc91>64a.631",
  "fc92>64a.632 fc93>64a.645 fc94>64a.646 fc95>64a.649 fc96>64a.64a fc97>626.62c fc98>626.62d",
  "fc99>626.62e fc9a>626.645 fc9b>626.647 fc9c>628.62c fc9d>628.62d fc9e>628.62e fc9f>628.645",
  "fca0>628.647 fca1>62a.62c fca2>62a.62d fca3>62a.62e fca4>62a.645 fca5>62a.647 fca6>62b.645",
  "fca7>62c.62d fca8>62c.645 fca9>62d.62c fcaa>62d.645 fcab>62e.62c fcac>62e.645 fcad>633.62c",
  "fcae>633.62d fcaf>633.62e fcb0>633.645 fcb1>635.62d fcb2>635.62e fcb3>635.645 fcb4>636.62c",
  "fcb5>636.62d fcb6>636.62e fcb7>636.645 fcb8>637.62d fcb9>638.645 fcba>639.62c fcbb>639.645",
  "fcbc>63a.62c fcbd>63a.645 fcbe>641.62c fcbf>641.62d fcc0>641.62e fcc1>641.645 fcc2>642.62d",
  "fcc3>642.645 fcc4>643.62c fcc5>643.62d fcc6>643.62e fcc7>643.644 fcc8>643.645 fcc9>644.62c",
  "fcca>644.62d fccb>644.62e fccc>644.645 fccd>644.647 fcce>645.62c fccf>645.62d fcd0>645.62e",
  "fcd1>645.645 fcd2>646.62c fcd3>646.62d fcd4>646.62e fcd5>646.645 fcd6>646.647 fcd7>647.62c",
  "fcd8>647.645 fcd9>647.670 fcda>64a.62c fcdb>64a.62d fcdc>64a.62e fcdd>64a.645 fcde>64a.647",
  "fcdf>626.645 fce0>626.647 fce1>628.645 fce2>628.647 fce3>62a.645 fce4>62a.647 fce5>62b.645",
  "fce6>62b.647 fce7>633.645 fce8>633.647 fce9>634.645 fcea>634.647 fceb>643.644 fcec>643.645",
  "fced>644.645 fcee>646.645 fcef>646.647 fcf0>64a.645 fcf1>64a.647 fcf2>640.64e.651",
  "fcf3>640.64f.651 fcf4>640.650.651 fcf5>637.649 fcf6>637.64a fcf7>639.649 fcf8>639.64a",
  "fcf9>63a.649 fcfa>63a.64a fcfb>633.649 fcfc>633.64a fcfd>634.649 fcfe>634.64a fcff>62d.649",
  "fd00>62d.64a fd01>62c.649 fd02>62c.64a fd03>62e.649 fd04>62e.64a fd05>635.649 fd06>635.64a",
  "fd07>636.649 fd08>636.64a fd09>634.62c fd0a>634.62d fd0b>634.62e fd0c>634.645 fd0d>634.631",
  "fd0e>633.631 fd0f>635.631 fd10>636.631 fd11>637.649 fd12>637.64a fd13>639.649 fd14>639.64a",
  "fd15>63a.649 fd16>63a.64a fd17>633.649 fd18>633.64a fd19>634.649 fd1a>634.64a fd1b>62d.649",
  "fd1c>62d.64a fd1d>62c.649 fd1e>62c.64a fd1f>62e.649 fd20>62e.64a fd21>635.649 fd22>635.64a",
  "fd23>636.649 fd24>636.64a fd25>634.62c fd26>634.62d fd27>634.62e fd28>634.645 fd29>634.631",
  "fd2a>633.631 fd2b>635.631 fd2c>636.631 fd2d>634.62c fd2e>634.62d fd2f>634.62e fd30>634.645",
  "fd31>633.647 fd32>634.647 fd33>637.645 fd34>633.62c fd35>633.62d fd36>633.62e fd37>634.62c",
  "fd38>634.62d fd39>634.62e fd3a>637.645 fd3b>638.645 fd3c>627.64b fd3d>627.64b",
  "fd50>62a.62c.645 fd51>62a.62d.62c fd52>62a.62d.62c fd53>62a.62d.645 fd54>62a.62e.645",
  "fd55>62a.645.62c fd56>62a.645.62d fd57>62a.645.62e fd58>62c.645.62d fd59>62c.645.62d",
  "fd5a>62d.645.64a fd5b>62d.645.649 fd5c>633.62d.62c fd5d>633.62c.62d fd5e>633.62c.649",
  "fd5f>633.645.62d fd60>633.645.62d fd61>633.645.62c fd62>633.645.645 fd63>633.645.645",
  "fd64>635.62d.62d fd65>635.62d.62d fd66>635.645.645 fd67>634.62d.645 fd68>634.62d.645",
  "fd69>634.62c.64a fd6a>634.645.62e fd6b>634.645.62e fd6c>634.645.645 fd6d>634.645.645",
  "fd6e>636.62d.649 fd6f>636.62e.645 fd70>636.62e.645 fd71>637.645.62d fd72>637.645.62d",
  "fd73>637.645.645 fd74>637.645.64a fd75>639.62c.645 fd76>639.645.645 fd77>639.645.645",
  "fd78>639.645.649 fd79>63a.645.645 fd7a>63a.645.64a fd7b>63a.645.649 fd7c>641.62e.645",
  "fd7d>641.62e.645 fd7e>642.645.62d fd7f>642.645.645 fd80>644.62d.645 fd81>644.62d.64a",
  "fd82>644.62d.649 fd83>644.62c.62c fd84>644.62c.62c fd85>644.62e.645 fd86>644.62e.645",
  "fd87>644.645.62d fd88>644.645.62d fd89>645.62d.62c fd8a>645.62d.645 fd8b>645.62d.64a",
  "fd8c>645.62c.62d fd8d>645.62c.645 fd8e>645.62e.62c fd8f>645.62e.645 fd92>645.62c.62e",
  "fd93>647.645.62c fd94>647.645.645 fd95>646.62d.645 fd96>646.62d.649 fd97>646.62c.645",
  "fd98>646.62c.645 fd99>646.62c.649 fd9a>646.645.64a fd9b>646.645.649 fd9c>64a.645.645",
  "fd9d>64a.645.645 fd9e>628.62e.64a fd9f>62a.62c.64a fda0>62a.62c.649 fda1>62a.62e.64a",
  "fda2>62a.62e.649 fda3>62a.645.64a fda4>62a.645.649 fda5>62c.645.64a fda6>62c.62d.649",
  "fda7>62c.645.649 fda8>633.62e.649 fda9>635.62d.64a fdaa>634.62d.64a fdab>636.62d.64a",
  "fdac>644.62c.64a fdad>644.645.64a fdae>64a.62d.64a fdaf>64a.62c.64a fdb0>64a.645.64a",
  "fdb1>645.645.64a fdb2>642.645.64a fdb3>646.62d.64a fdb4>642.645.62d fdb5>644.62d.645",
  "fdb6>639.645.64a fdb7>643.645.64a fdb8>646.62c.62d fdb9>645.62e.64a fdba>644.62c.645",
  "fdbb>643.645.645 fdbc>644.62c.645 fdbd>646.62c.62d fdbe>62c.62d.64a fdbf>62d.62c.64a",
  "fdc0>645.62c.64a fdc1>641.645.64a fdc2>628.62d.64a fdc3>643.645.645 fdc4>639.62c.645",
  "fdc5>635.645.645 fdc6>633.62e.64a fdc7>646.62c.64a fdf0>635.644.6d2 fdf1>642.644.6d2",
  "fdf2>627.644.644.647 fdf3>627.643.628.631 fdf4>645.62d.645.62f fdf5>635.644.639.645",
  "fdf6>631.633.648.644 fdf7>639.644.64a.647 fdf8>648.633.644.645 fdf9>635.644.649",
  "fdfa>635.644.649.20.627.644.644.647.20.639.644.64a.647.20.648.633.644.645",
  "fdfb>62c.644.20.62c.644.627.644.647 fdfc>631.6cc.627.644 fe49>20.305 fe4a>20.305 fe4b>20.305",
  "fe4c>20.305 fe70>20.64b fe71>640.64b fe72>20.64c fe74>20.64d fe76>20.64e fe77>640.64e",
  "fe78>20.64f fe79>640.64f fe7a>20.650 fe7b>640.650 fe7c>20.651 fe7d>640.651 fe7e>20.652",
  "fe7f>640.652 fef5>644.622 fef6>644.622 fef7>644.623 fef8>644.623 fef9>644.625 fefa>644.625",
  "fefb>644.627 fefc>644.627 ffe3>20.304 1d15e>1d157.1d165 1d15f>1d158.1d165",
  "1d160>1d158.1d165.1d16e 1d161>1d158.1d165.1d16f 1d162>1d158.1d165.1d170",
  "1d163>1d158.1d165.1d171 1d164>1d158.1d165.1d172 1d1bb>1d1b9.1d165 1d1bc>1d1ba.1d165",
  "1d1bd>1d1b9.1d165.1d16e 1d1be>1d1ba.1d165.1d16e 1d1bf>1d1b9.1d165.1d16f",
  "1d1c0>1d1ba.1d165.1d16f 1f101>30.2c 1f102>31.2c 1f103>32.2c 1f104>33.2c 1f105>34.2c",
  "1f106>35.2c 1f107>36.2c 1f108>37.2c 1f109>38.2c 1f10a>39.2c 1f110>28.61.29 1f111>28.62.29",
  "1f112>28.63.29 1f113>28.64.29 1f114>28.65.29 1f115>28.66.29 1f116>28.67.29 1f117>28.68.29",
  "1f118>28.69.29 1f119>28.6a.29 1f11a>28.6b.29 1f11b>28.6c.29 1f11c>28.6d.29 1f11d>28.6e.29",
  "1f11e>28.6f.29 1f11f>28.70.29 1f120>28.71.29 1f121>28.72.29 1f122>28.73.29 1f123>28.74.29",
  "1f124>28.75.29 1f125>28.76.29 1f126>28.77.29 1f127>28.78.29 1f128>28.79.29 1f129>28.7a.29",
  "1f12a>3014.73.3015 1f12d>63.64 1f12e>77.7a 1f14a>68.76 1f14b>6d.76 1f14c>73.64 1f14d>73.73",
  "1f14e>70.70.76 1f14f>77.63 1f16a>6d.63 1f16b>6d.64 1f16c>6d.72 1f190>64.6a 1f200>307b.304b",
  "1f201>30b3.30b3 1f240>3014.672c.3015 1f241>3014.4e09.3015 1f242>3014.4e8c.3015",
  "1f243>3014.5b89.3015 1f244>3014.70b9.3015 1f245>3014.6253.3015 1f246>3014.76d7.3015",
  "1f247>3014.52dd.3015 1f248>3014.6557.3015"]

/-- The characters that stand for several, each alone in a text, with what they stand for. -/
def sequences : List (Text × Text) := (sequenceTable.flatMap Unicode.words).map Unicode.rule

end Domain

end WorkspaceEditing
